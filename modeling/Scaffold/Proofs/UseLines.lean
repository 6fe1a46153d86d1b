import Scaffold.Proofs.Aliases
import Scaffold.Proofs.Requirements

/-!
The import lines of a file: one for each symbol, by full path. A line says which symbol is imported
and by which name it is spoken. Both can be read back from it if the symbol is importable at all.
-/

namespace Scaffold

namespace Text

theorem beforeColons_append {cs : List Char} (h : ':' ∉ cs) (rest : List Char) :
    beforeColons (cs ++ rest) = cs ++ beforeColons rest := by
  induction cs with
  | nil => rfl
  | cons c cs ih =>
    obtain ⟨hc, hcs⟩ := not_or.mp (mt List.mem_cons.mpr h)
    rw [List.cons_append, beforeColons.eq_3 c _ fun _ heq => absurd heq (Ne.symm hc), ih hcs,
      List.cons_append]

theorem lastSegment_of_not_mem {s : String} (h : ':' ∉ s.toList) : lastSegment s = s := by
  have hcolon : ':' ∉ s.toList.reverse := by simpa using h
  have hbefore := beforeColons_append hcolon []
  rw [List.append_nil, beforeColons, List.append_nil] at hbefore
  rw [lastSegment, hbefore, List.reverse_reverse, String.ofList_toList]

theorem lastSegment_append (front : String) {last : String} (h : ':' ∉ last.toList) :
    lastSegment (front ++ "::" ++ last) = last := by
  have hlist : (front ++ "::" ++ last).toList.reverse =
      last.toList.reverse ++ ':' :: ':' :: front.toList.reverse := by simp
  rw [lastSegment, hlist, beforeColons_append (by simpa using h), beforeColons, List.append_nil,
    List.reverse_reverse, String.ofList_toList]

/-- Every character but a colon is in one of the segments. -/
theorem mem_pathPieces_of_mem {cs : List Char} {c : Char} (h : c ∈ cs) (hc : c ≠ ':') :
    ∃ piece ∈ pathPieces cs, c ∈ piece := by
  fun_induction pathPieces cs with
  | case1 => cases h
  | case2 cs ih =>
    obtain ⟨piece, hpiece, hmem⟩ := ih (by simpa [hc] using h)
    exact ⟨piece, List.mem_cons_of_mem _ hpiece, hmem⟩
  | case3 d cs hnot hnil ih =>
    rcases List.mem_cons.mp h with rfl | h
    · exact ⟨[c], by simp, by simp⟩
    · obtain ⟨piece, hpiece, -⟩ := ih h
      rw [hnil] at hpiece
      cases hpiece
  | case4 d cs hnot piece rest hcons ih =>
    rcases List.mem_cons.mp h with rfl | h
    · exact ⟨c :: piece, List.mem_cons_self, List.mem_cons_self⟩
    · obtain ⟨other, hother, hmem⟩ := ih h
      rw [hcons] at hother
      rcases List.mem_cons.mp hother with rfl | hother
      · exact ⟨d :: other, List.mem_cons_self, List.mem_cons_of_mem d hmem⟩
      · exact ⟨other, List.mem_cons_of_mem _ hother, hmem⟩

end Text

namespace Naming

theorem isWordChar_of_isWord {cs : List Char} (h : isWord cs = true) :
    ∀ c ∈ cs, isWordChar c = true := by
  cases cs with
  | nil => exact nofun
  | cons c cs => exact ((isWord_cons_iff c cs).mp h).2.1

/-- What stands between the colons of a path: characters of words, and the marker of a raw
identifier. -/
def InSegment (c : Char) : Prop := isWordChar c = true ∨ c = '#'

instance : DecidablePred InSegment := fun _ => inferInstanceAs (Decidable (_ ∨ _))

theorem inSegment_of_isIdentifier {name : String} (h : isIdentifier name = true) {c : Char}
    (hc : c ∈ name.toList) : InSegment c := by
  unfold isIdentifier at h
  split at h
  · next bare hraw =>
    rw [Bool.and_eq_true] at h
    rw [hraw, List.mem_cons, List.mem_cons] at hc
    rcases hc with rfl | rfl | hc
    · exact .inl rfl
    · exact .inr rfl
    · exact .inl (isWordChar_of_isWord h.1 c hc)
  · rw [Bool.and_eq_true] at h
    exact .inl (isWordChar_of_isWord h.1 c hc)

/-- What may stand between the colons of a path. -/
def IsSegment (segment : String) : Prop :=
  segment ∈ pathKeywords ∨ isIdentifier segment = true

theorem isPath_iff (path : String) :
    isPath path = true ↔
      ∀ piece ∈ Text.pathPieces path.toList, IsSegment (String.ofList piece) := by
  simp [isPath, Text.splitPath, IsSegment]

theorem IsSegment.inSegment {segment : String} (h : IsSegment segment) {c : Char}
    (hc : c ∈ segment.toList) : InSegment c := by
  rcases h with h | h
  · have hwords : ∀ word ∈ pathKeywords, word.toList.all isWordChar = true := by decide +kernel
    exact .inl (List.all_eq_true.mp (hwords segment h) c hc)
  · exact inSegment_of_isIdentifier h hc

theorem inSegment_of_isPath {path : String} (h : isPath path = true) {c : Char}
    (hc : c ∈ path.toList) : InSegment c ∨ c = ':' := by
  by_cases hcolon : c = ':'
  · exact .inr hcolon
  · obtain ⟨piece, hpiece, hmem⟩ := Text.mem_pathPieces_of_mem hc hcolon
    have hsegment := (isPath_iff path).mp h piece hpiece
    exact .inl (hsegment.inSegment (by simpa using hmem))

end Naming

namespace Source

/-- The symbol of a full path, whose last segment is the name that it is exported under. -/
def Symbol.ofFullPath (full : String) : Symbol :=
  let name := Text.lastSegment full
  { path := String.ofList (full.toList.take (full.toList.length - (name.toList.length + 2)))
    name := name }

theorem Symbol.ofFullPath_fullPath {s : Symbol} (h : ':' ∉ s.name.toList) :
    ofFullPath s.fullPath = s := by
  have hname : Text.lastSegment s.fullPath = s.name := Text.lastSegment_append s.path h
  have hlist : s.fullPath.toList = s.path.toList ++ (':' :: ':' :: s.name.toList) := by
    simp [fullPath]
  have hpath : s.fullPath.toList.take (s.fullPath.toList.length - (s.name.toList.length + 2)) =
      s.path.toList := by
    have hlength : (s.path.toList ++ (':' :: ':' :: s.name.toList)).length -
        (s.name.toList.length + 2) = s.path.toList.length := by
      simp only [List.length_append, List.length_cons]
      omega
    rw [hlist, hlength, List.take_left]
  cases s
  simp_all [ofFullPath]

namespace Imports

/-- The symbol that an import line names, and the name by which it is spoken. -/
def readUseLine? (line : String) : Option (Symbol × String) :=
  match line.toList with
  | 'u' :: 's' :: 'e' :: ' ' :: rest =>
    let s := Symbol.ofFullPath (String.ofList (rest.dropLast.takeWhile (· != ' ')))
    match rest.getLast?, rest.dropLast.dropWhile (· != ' ') with
    | some ';', [] => some (s, s.name)
    | some ';', ' ' :: 'a' :: 's' :: ' ' :: name => some (s, String.ofList name)
    | _, _ => none
  | _ => none

theorem useLine_of_eq {s : Symbol} {name : String} (h : name = s.name) :
    useLine s name = "use " ++ s.fullPath ++ ";" := by
  rw [useLine, if_pos (beq_iff_eq.mpr h)]

theorem useLine_of_ne {s : Symbol} {name : String} (h : name ≠ s.name) :
    useLine s name = "use " ++ s.fullPath ++ (" as " ++ name ++ ";") := by
  rw [useLine, if_neg (mt beq_iff_eq.mp h)]
  simp only [String.append_assoc]

/-- Whatever its path and name, the line of a symbol tells the name that it is spoken by. -/
theorem injective_useLine (s : Symbol) : Function.Injective (useLine s) := by
  have hmixed {name : String} (hne : name ≠ s.name) : useLine s name ≠ useLine s s.name := by
    intro heq
    rw [useLine_of_ne hne, useLine_of_eq rfl, String.append_right_inj] at heq
    have hlists := congrArg String.toList heq
    simp at hlists
  intro name other heq
  by_cases hname : name = s.name <;> by_cases hother : other = s.name
  · exact hname.trans hother.symm
  · rw [hname] at heq
    exact absurd heq.symm (hmixed hother)
  · rw [hother] at heq
    exact absurd heq (hmixed hname)
  · rw [useLine_of_ne hname, useLine_of_ne hother, String.append_right_inj,
      String.append_left_inj, String.append_right_inj] at heq
    exact heq

theorem readUseLine?_useLine {s : Symbol} (hname : ':' ∉ s.name.toList)
    (hblank : ' ' ∉ s.fullPath.toList) (name : String) :
    readUseLine? (useLine s name) = some (s, name) := by
  have hread (behind : List Char) (hbehind : ∀ c ∈ behind.head?, c = ' ') :
      (s.fullPath.toList ++ behind).takeWhile (· != ' ') = s.fullPath.toList ∧
        (s.fullPath.toList ++ behind).dropWhile (· != ' ') = behind := by
    have hfull : ∀ c ∈ s.fullPath.toList, (c != ' ') = true := fun c hc =>
      bne_iff_ne.mpr fun heq => hblank (heq ▸ hc)
    rw [List.takeWhile_append_of_pos hfull, List.dropWhile_append_of_pos hfull]
    cases behind with
    | nil => simp
    | cons c cs => simp [hbehind c rfl]
  by_cases hown : name = s.name
  · have hline : (useLine s name).toList =
        'u' :: 's' :: 'e' :: ' ' :: ((s.fullPath.toList ++ []) ++ [';']) := by
      simp [useLine_of_eq hown]
    obtain ⟨htake, hdrop⟩ := hread [] (by simp)
    rw [readUseLine?, hline]
    simp only [List.dropLast_concat, List.getLast?_concat, htake, hdrop, String.ofList_toList,
      Symbol.ofFullPath_fullPath hname, hown]
  · have hline : (useLine s name).toList =
        'u' :: 's' :: 'e' :: ' ' ::
          ((s.fullPath.toList ++ ' ' :: 'a' :: 's' :: ' ' :: name.toList) ++ [';']) := by
      simp [useLine_of_ne hown]
    obtain ⟨htake, hdrop⟩ := hread (' ' :: 'a' :: 's' :: ' ' :: name.toList) (by simp)
    rw [readUseLine?, hline]
    simp only [List.dropLast_concat, List.getLast?_concat, htake, hdrop, String.ofList_toList,
      Symbol.ofFullPath_fullPath hname]

theorem readUseLine?_of_importable {s : Symbol} (h : s.Importable) (name : String) :
    readUseLine? (useLine s name) = some (s, name) := by
  refine readUseLine?_useLine (Naming.not_mem_colon_of_isIdentifier h.2) (fun hmem => ?_) name
  rw [Symbol.fullPath, String.toList_append, String.toList_append, List.mem_append,
    List.mem_append] at hmem
  rcases hmem with (hmem | hmem) | hmem
  · exact absurd (Naming.inSegment_of_isPath h.1 hmem) (by decide)
  · exact absurd hmem (by decide)
  · exact absurd (Naming.inSegment_of_isIdentifier h.2 hmem) (by decide)

/-- One line may stand above another: by full path, and then by the line. -/
def mayStandAbove (a b : String × String) : Bool :=
  decide (a.1 < b.1) || (a.1 == b.1 && decide (a.2 ≤ b.2))

theorem mayStandAbove_iff (a b : String × String) :
    mayStandAbove a b = true ↔ a.1 < b.1 ∨ a.1 = b.1 ∧ a.2 ≤ b.2 := by
  simp [mayStandAbove]

theorem mayStandAbove_trans (a b c : String × String) (hab : mayStandAbove a b = true)
    (hbc : mayStandAbove b c = true) : mayStandAbove a c = true := by
  rw [mayStandAbove_iff] at hab hbc ⊢
  rcases hab with hab | ⟨hab, hab'⟩ <;> rcases hbc with hbc | ⟨hbc, hbc'⟩
  · exact .inl (String.lt_trans hab hbc)
  · exact .inl (hbc ▸ hab)
  · exact .inl (hab ▸ hbc)
  · exact .inr ⟨hab.trans hbc, String.le_trans hab' hbc'⟩

theorem mayStandAbove_total (a b : String × String) :
    (mayStandAbove a b || mayStandAbove b a) = true := by
  rw [Bool.or_eq_true, mayStandAbove_iff, mayStandAbove_iff]
  by_cases hpath : a.1 = b.1
  · exact (String.le_total a.2 b.2).imp (fun h => .inr ⟨hpath, h⟩) fun h => .inr ⟨hpath.symm, h⟩
  · exact (lt_or_lt_of_ne hpath).imp .inl .inl

/-- What the line of a symbol is placed by. -/
def lineKey (p : Symbol × String) : String × String := (p.1.fullPath, useLine p.1 p.2)

/-- The symbols with their local names, in the order of the lines. -/
def inLineOrder (r : Imports) : List (Symbol × String) :=
  r.localNames.mergeSort fun p q => mayStandAbove (lineKey p) (lineKey q)

theorem perm_inLineOrder (r : Imports) : r.inLineOrder.Perm r.localNames := List.mergeSort_perm _ _

theorem pairwise_inLineOrder (r : Imports) :
    r.inLineOrder.Pairwise fun p q => p.1.fullPath ≤ q.1.fullPath := by
  have hsorted : r.inLineOrder.Pairwise fun p q => mayStandAbove (lineKey p) (lineKey q) = true :=
    List.pairwise_mergeSort
      (fun p q s => mayStandAbove_trans (lineKey p) (lineKey q) (lineKey s))
      (fun p q => mayStandAbove_total (lineKey p) (lineKey q)) r.localNames
  refine hsorted.imp fun {p q} h => ?_
  rcases (mayStandAbove_iff (lineKey p) (lineKey q)).mp h with hless | ⟨heq, -⟩
  · exact String.not_lt.mp fun hback => String.lt_irrefl _ (String.lt_trans hless hback)
  · have hsame : p.1.fullPath = q.1.fullPath := heq
    exact hsame ▸ String.le_refl _

theorem useLines_eq_map (r : Imports) :
    r.useLines = r.inLineOrder.map fun p => useLine p.1 p.2 := by
  have hsort : r.inLineOrder.map lineKey = (r.localNames.map lineKey).mergeSort mayStandAbove :=
    List.map_mergeSort fun _ _ _ _ => rfl
  change ((r.localNames.map lineKey).mergeSort mayStandAbove).map Prod.snd = _
  rw [← hsort, List.map_map]
  rfl

end Imports

theorem File.importable_of_renders {f : File} (h : ∃ text, f.render = .ok text) :
    ∀ s ∈ f.imports.symbols, s.Importable := by
  have hmet := (Met.append_iff.mp ((File.render_ok_iff f).mp h)).1
  intro s hs
  simpa [Symbol.Importable] using Met.flatMap_iff.mp hmet s hs

/-- Import lines alone make a file. -/
theorem File.renders_of_importable {r : Imports} (h : ∀ s ∈ r.symbols, s.Importable) :
    ∃ text, ({ imports := r } : File).render = .ok text := by
  refine (File.render_ok_iff _).mpr (Met.append_iff.mpr ⟨Met.flatMap_iff.mpr fun s hs => ?_, ?_⟩)
  · simp [(h s hs).1, (h s hs).2]
  · exact met_itemRequirements_iff.mpr nofun

theorem File.speaker_eq_spoken (f : File) : f.speaker = f.imports.spoken := rfl

namespace Imports

/-- The imports of a file depend on what is noted and on nothing else. There is one line for each
symbol, by full path, and the line of a symbol tells its local name. Where a file has a text, its
lines are read back as the symbols and the names that its items speak them by. -/
theorem import_lines_tell_names (notes : List Note) :
    let r := ofNotes notes
    (∀ notes', (∀ n, n ∈ notes' ↔ n ∈ notes) →
      (ofNotes notes').symbols = r.symbols ∧ (ofNotes notes').localNames = r.localNames ∧
      (∀ s, (ofNotes notes').localName? s = r.localName? s) ∧
      (ofNotes notes').useLines = r.useLines) ∧
    (∀ s, Function.Injective (useLine s)) ∧
    ∃ ps : List (Symbol × String),
      (ps.map Prod.fst).Perm r.symbols ∧ (∀ p ∈ ps, r.localName? p.1 = some p.2) ∧
      ps.Pairwise (fun p q => p.1.fullPath ≤ q.1.fullPath) ∧
      r.useLines = ps.map (fun p => useLine p.1 p.2) ∧
      ∀ f : File, f.imports = r → (∃ text, f.render = .ok text) →
        (∀ p ∈ ps, f.speaker p.1 = p.2) ∧ r.useLines.map readUseLine? = ps.map some := by
  intro r
  have hnames : ∀ p ∈ r.inLineOrder, r.localName? p.1 = some p.2 := fun p hp =>
    mem_localNames_iff.mp (r.perm_inLineOrder.mem_iff.mp hp)
  refine ⟨fun notes' hsame => ?_, injective_useLine, r.inLineOrder, ?_, hnames,
    r.pairwise_inLineOrder, r.useLines_eq_map, ?_⟩
  · have heq : ofNotes notes' = r := (holds_ofNotes notes').eq (holds_ofNotes notes) hsame
    rw [heq]
    exact ⟨rfl, rfl, fun _ => rfl, rfl⟩
  · rw [← r.map_fst_localNames]
    exact r.perm_inLineOrder.map Prod.fst
  · rintro f himports hrenders
    have himportable := File.importable_of_renders hrenders
    rw [himports] at himportable
    refine ⟨fun p hp => ?_, ?_⟩
    · rw [f.speaker_eq_spoken, himports, spoken, hnames p hp, Option.getD_some]
    · rw [r.useLines_eq_map, List.map_map]
      refine List.map_congr_left fun p hp => ?_
      have hs : p.1 ∈ r.symbols := mem_symbols_of_localName? (hnames p hp)
      exact readUseLine?_of_importable (himportable p.1 hs) p.2

theorem mergeSort_pair {α : Type} (le : α → α → Bool) (x y : α) :
    [x, y].mergeSort le = if le x y then [x, y] else [y, x] := by
  simp [List.mergeSort, List.MergeSort.Internal.splitInTwo, List.merge]

/-- The path of one module starts with that of the other, and a digit comes before a colon, so the
order of the lines is not that of the symbols. -/
def twinNotes : List Note := [.symbol ⟨"a", "X"⟩, .symbol ⟨"a0", "X"⟩]

theorem localNames_twinNotes :
    (ofNotes twinNotes).localNames = [(⟨"a", "X"⟩, "AX"), (⟨"a0", "X"⟩, "X")] := by
  have hsymbols : (ofNotes twinNotes).symbols = [⟨"a", "X"⟩, ⟨"a0", "X"⟩] := by decide +kernel
  have hexported : (ofNotes twinNotes).exportedNames = ["X"] := by decide +kernel
  have hgroup : (ofNotes twinNotes).group "X" = [⟨"a0", "X"⟩, ⟨"a", "X"⟩] := by
    have hsame : [⟨"a", "X"⟩, ⟨"a0", "X"⟩].filter (fun s : Symbol => s.name == "X") =
        [⟨"a", "X"⟩, ⟨"a0", "X"⟩] := by decide +kernel
    rw [group, hsymbols, hsame, mergeSort_pair]
    decide +kernel
  have hgiven : (ofNotes twinNotes).assignment.given =
      [(⟨"a0", "X"⟩, "X"), (⟨"a", "X"⟩, "AX")] := by
    rw [assignment, hexported, List.map_singleton, hgroup]
    decide +kernel
  simp only [localNames, hsymbols, hgiven]
  decide +kernel

theorem twinNotes_lines_tell_names :
    (ofNotes twinNotes).useLines = ["use a0::X;", "use a::X as AX;"] ∧
    (ofNotes (twinNotes.reverse ++ twinNotes)).useLines = (ofNotes twinNotes).useLines ∧
    ∃ ps : List (Symbol × String), ps.length = 2 ∧
      (ofNotes twinNotes).useLines.map readUseLine? = ps.map some ∧
      ∀ p ∈ ps, ({ imports := ofNotes twinNotes } : File).speaker p.1 = p.2 := by
  have hlines : (ofNotes twinNotes).useLines = ["use a0::X;", "use a::X as AX;"] := by
    rw [useLines_eq_map, inLineOrder, localNames_twinNotes, mergeSort_pair]
    decide +kernel
  have hrenders := File.renders_of_importable (r := ofNotes twinNotes) (by decide +kernel)
  obtain ⟨hsets, -, ps, -, -, -, hmap, hfile⟩ := import_lines_tell_names twinNotes
  obtain ⟨hspeak, hread⟩ := hfile { imports := ofNotes twinNotes } rfl hrenders
  obtain ⟨-, -, -, hagain⟩ := hsets (twinNotes.reverse ++ twinNotes) (by simp)
  have hlength := congrArg List.length (hlines.symm.trans hmap)
  exact ⟨hlines, hagain, ps, by simpa using hlength.symm, hread, hspeak⟩

end Imports

end Source

end Scaffold
