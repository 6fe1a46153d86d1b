import Scaffold.Proofs.ReadBack
import Scaffold.Proofs.WrittenCharacters
import Scaffold.Yaml.Alias

/-!
The tokens of a written document are read as its nodes. They hold no anchor and no alias, so that
linking and expanding keep every node as it is.
-/

namespace Scaffold.Yaml

/-- A document put together from scalars, lists and records. -/
def assemble {ν : Type} (scalar : Style → String → ν) (list : List ν → ν)
    (record : List (ν × ν) → ν) : Document → ν
  | .text s => scalar (textStyle s) s
  | .flag b => scalar .plain (if b then "true" else "false")
  | .number n => scalar .plain (toString n)
  | .list xs => list (xs.map (assemble scalar list record))
  | .record ms => record (ms.map fun m => (scalar .plain m.1, assemble scalar list record m.2))
decreasing_by
  · decreasing_tactic
  · exact Document.sizeOf_lt_record ‹m ∈ ms›

def treeOf : Document → Tree :=
  assemble (Tree.scalar none none) (Tree.list none none) (Tree.record none none)

def linkedOf : Document → Linked :=
  assemble (Linked.scalar none) (Linked.list none) (Linked.record none)

/-- The value of a document. -/
def ofDocument : Document → Yaml :=
  assemble (Yaml.scalar none) (Yaml.list none) (Yaml.record none)

namespace Tree

/-- The tokens of a document start with none that would stand for a missing node. -/
theorem exists_tokensOf_eq_cons (x : Document) :
    ∃ t ts, tokensOf x = t :: ts ∧ t ≠ .key ∧ t ≠ .value ∧ t ≠ .blockEnd ∧
      (isList x = false → t ≠ .blockEntry) := by
  cases x with
  | text s => exact ⟨_, _, rfl, by simp⟩
  | flag b => exact ⟨_, _, rfl, by simp⟩
  | number n => exact ⟨_, _, rfl, by simp⟩
  | list xs => cases xs <;> exact ⟨_, _, rfl, by simp [isList]⟩
  | record ms => exact ⟨_, _, rfl, by simp⟩

/-- The value of a member is read, in front of what is no entry of it. -/
def ReadAsValue (x : Document) : Prop :=
  ∀ (fuel : Nat) (handles : Handles) (rest : List Token), 2 * (tokensOf x).length ≤ fuel →
    rest.head? ≠ some .blockEntry →
      node fuel handles true true (tokensOf x ++ rest) = some (treeOf x, rest)

/-- The entry of a list is read. -/
def ReadAsEntry (x : Document) : Prop :=
  ∀ (fuel : Nat) (handles : Handles) (rest : List Token), 2 * (tokensOf x).length ≤ fuel →
    node fuel handles true false (tokensOf x ++ rest) = some (treeOf x, rest)

theorem node_scalar (fuel : Nat) (handles : Handles) (block indentless : Bool) (style : Style)
    (s : String) (rest : List Token) :
    node (fuel + 1) handles block indentless (.scalar style s :: rest) =
      some (scalar none none style s, rest) := rfl

theorem node_brackets (fuel : Nat) (handles : Handles) (block indentless : Bool)
    (rest : List Token) :
    node (fuel + 2) handles block indentless (.flowListStart :: .flowListEnd :: rest) =
      some (list none none [], rest) := rfl

theorem node_dash (fuel : Nat) (handles : Handles) (block : Bool) (ts : List Token) :
    node (fuel + 1) handles block true (.blockEntry :: ts) =
      (looseEntries fuel handles (.blockEntry :: ts)).map fun p => (list none none p.1, p.2) := by
  cases h : looseEntries fuel handles (.blockEntry :: ts) with
  | none => simp [node, properties, fullTag?, h]
  | some p => simp [node, properties, fullTag?, h]

theorem node_record (fuel : Nat) (handles : Handles) (indentless : Bool) (ts : List Token) :
    node (fuel + 1) handles true indentless (.blockRecordStart :: ts) =
      (blockMembers fuel handles ts).map fun p => (record none none p.1, p.2) := by
  cases h : blockMembers fuel handles ts with
  | none => simp [node, properties, fullTag?, h]
  | some p => simp [node, properties, fullTag?, h]

/-- What is no mark of a missing entry is read as a node. -/
theorem looseEntries_dash {x : Document} (hx : ReadAsEntry x) {t : Token} {ts : List Token}
    (ht : tokensOf x = t :: ts) (hkey : t ≠ .key) (hvalue : t ≠ .value) (hend : t ≠ .blockEnd)
    (hdash : t ≠ .blockEntry) (fuel : Nat) (handles : Handles) (rest : List Token)
    (hfuel : 2 * (tokensOf x).length ≤ fuel) :
    looseEntries (fuel + 1) handles (.blockEntry :: (tokensOf x ++ rest)) =
      (looseEntries fuel handles rest).map fun p => (treeOf x :: p.1, p.2) := by
  have hnode := hx fuel handles rest hfuel
  rw [ht, List.cons_append] at hnode ⊢
  rw [looseEntries, hnode]
  · simp only [Option.bind_eq_bind, Option.bind_some]
    cases looseEntries fuel handles rest <;> rfl
  · exact fun _ h => hdash (List.cons.inj h).1
  · exact fun _ h => hkey (List.cons.inj h).1
  · exact fun _ h => hvalue (List.cons.inj h).1
  · exact fun _ h => hend (List.cons.inj h).1

theorem blockPart_value {x : Document} (hx : ReadAsValue x) {t : Token} {ts : List Token}
    (ht : tokensOf x = t :: ts) (hkey : t ≠ .key) (hvalue : t ≠ .value) (hend : t ≠ .blockEnd)
    (fuel : Nat) (handles : Handles) (rest : List Token) (hrest : rest.head? ≠ some .blockEntry)
    (hfuel : 2 * (tokensOf x).length ≤ fuel) :
    blockPart (fuel + 1) handles (tokensOf x ++ rest) = some (treeOf x, rest) := by
  have hnode := hx fuel handles rest hfuel hrest
  rw [ht, List.cons_append] at hnode ⊢
  rw [blockPart, hnode]
  · exact fun _ h => hkey (List.cons.inj h).1
  · exact fun _ h => hvalue (List.cons.inj h).1
  · exact fun _ h => hend (List.cons.inj h).1

/-- The entries of a list are read up to the first token that is no dash. -/
theorem looseEntries_entryTokens {xs : List Document}
    (hxs : ∀ x ∈ xs, isList x = false ∧ ReadAsEntry x) {fuel : Nat} (handles : Handles)
    {rest : List Token} (hrest : rest.head? ≠ some .blockEntry) (hpos : 0 < fuel)
    (hfuel : 2 * (entryTokens xs).length ≤ fuel + 1) :
    looseEntries fuel handles (entryTokens xs ++ rest) = some (xs.map treeOf, rest) := by
  induction xs generalizing fuel with
  | nil =>
    obtain ⟨fuel, rfl⟩ := Nat.exists_eq_add_one_of_ne_zero (by omega : fuel ≠ 0)
    cases rest with
    | nil => rfl
    | cons t rest =>
      rw [entryTokens, List.nil_append, looseEntries]
      · rfl
      · rintro _ h
        exact hrest (congrArg List.head? h)
  | cons x xs ih =>
    obtain ⟨⟨hlist, hx⟩, hxs⟩ := List.forall_mem_cons.mp hxs
    obtain ⟨fuel, rfl⟩ := Nat.exists_eq_add_one_of_ne_zero (by omega : fuel ≠ 0)
    obtain ⟨t, ts, ht, hkey, hvalue, hend, hdash⟩ := exists_tokensOf_eq_cons x
    have hlength : 0 < (tokensOf x).length := by simp [ht]
    simp only [entryTokens, List.cons_append, List.length_cons, List.length_append] at hfuel
    simp only [entryTokens, List.cons_append, List.append_assoc]
    rw [looseEntries_dash hx ht hkey hvalue hend (hdash hlist) fuel handles _ (by omega),
      ih hxs (by omega) (by omega)]
    rfl

/-- The members of a record are read with its end. -/
theorem blockMembers_memberTokens {ms : List (String × Document)}
    (hms : ∀ m ∈ ms, ReadAsValue m.2) {fuel : Nat} (handles : Handles) (rest : List Token)
    (hfuel : 2 * (memberTokens ms).length < fuel) :
    blockMembers fuel handles (memberTokens ms ++ .blockEnd :: rest) =
      some (ms.map fun m => (scalar none none .plain m.1, treeOf m.2), rest) := by
  induction ms generalizing fuel with
  | nil =>
    obtain ⟨fuel, rfl⟩ := Nat.exists_eq_add_one_of_ne_zero (by omega : fuel ≠ 0)
    rfl
  | cons m ms ih =>
    obtain ⟨key, x⟩ := m
    have hx : ReadAsValue x := hms (key, x) List.mem_cons_self
    obtain ⟨t, ts, ht, hkey, hvalue, hend, -⟩ := exists_tokensOf_eq_cons x
    simp only [memberTokens, List.cons_append, List.length_cons, List.length_append] at hfuel
    obtain ⟨fuel, rfl⟩ : ∃ k, fuel = k + 3 := ⟨fuel - 3, by omega⟩
    have hnext : (memberTokens ms ++ .blockEnd :: rest).head? ≠ some .blockEntry := by
      cases ms <;> simp [memberTokens]
    have hpart := blockPart_value hx ht hkey hvalue hend (fuel + 1) handles _ hnext (by omega)
    have hrest : blockMembers (fuel + 2) handles (memberTokens ms ++ .blockEnd :: rest) = _ :=
      ih (fun m hm => hms m (List.mem_cons_of_mem _ hm)) (by omega)
    have hname : blockPart (fuel + 2) handles (.scalar .plain key :: .value :: (tokensOf x ++
        (memberTokens ms ++ .blockEnd :: rest))) = some (scalar none none .plain key,
          .value :: (tokensOf x ++ (memberTokens ms ++ .blockEnd :: rest))) := rfl
    simp only [memberTokens, List.cons_append, List.append_assoc]
    rw [blockMembers]
    simp only [hname, Option.bind_eq_bind, Option.bind_some, hpart, hrest]
    rfl

/-- What makes one token, or is in brackets, is read alike as a value and as an entry. -/
theorem read_of_leaf {x : Document}
    (h : ∀ (fuel : Nat) (handles : Handles) (indentless : Bool) (rest : List Token),
      2 * (tokensOf x).length ≤ fuel →
        node fuel handles true indentless (tokensOf x ++ rest) = some (treeOf x, rest)) :
    ReadAsValue x ∧ (isList x = false → ReadAsEntry x) :=
  ⟨fun fuel handles rest hfuel _ => h fuel handles true rest hfuel,
    fun _ fuel handles rest hfuel => h fuel handles false rest hfuel⟩

theorem read_scalar {x : Document} {style : Style} {s : String}
    (htokens : tokensOf x = [.scalar style s]) (htree : treeOf x = scalar none none style s) :
    ReadAsValue x ∧ (isList x = false → ReadAsEntry x) := by
  refine read_of_leaf fun fuel handles indentless rest hfuel => ?_
  rw [htokens] at hfuel ⊢
  obtain ⟨fuel, rfl⟩ := Nat.exists_eq_add_one_of_ne_zero
    (by simp only [List.length_singleton] at hfuel; omega : fuel ≠ 0)
  rw [htree]
  exact node_scalar fuel handles true indentless style s rest

theorem readAsValue_list {xs : List Document}
    (hxs : ∀ x ∈ xs, isList x = false ∧ ReadAsEntry x) : ReadAsValue (.list xs) := by
  intro fuel handles rest hfuel hrest
  cases xs with
  | nil =>
    obtain ⟨fuel, rfl⟩ : ∃ k, fuel = k + 2 := ⟨fuel - 2, by simp [tokensOf] at hfuel; omega⟩
    rw [treeOf, assemble]
    exact node_brackets fuel handles true true rest
  | cons x xs =>
    rw [tokensOf] at hfuel ⊢
    have hlength : 2 ≤ (entryTokens (x :: xs)).length := by
      obtain ⟨t, ts, ht, -⟩ := exists_tokensOf_eq_cons x
      simp [entryTokens, ht]
    obtain ⟨fuel, rfl⟩ := Nat.exists_eq_add_one_of_ne_zero (by omega : fuel ≠ 0)
    have hentries := looseEntries_entryTokens hxs handles hrest (by omega : 0 < fuel) hfuel
    have hdash : entryTokens (x :: xs) ++ rest =
        .blockEntry :: (tokensOf x ++ (entryTokens xs ++ rest)) := by simp [entryTokens]
    rw [hdash] at hentries ⊢
    rw [node_dash, hentries, treeOf, assemble]
    rfl

theorem read_record {ms : List (String × Document)} (hms : ∀ m ∈ ms, ReadAsValue m.2)
    (fuel : Nat) (handles : Handles) (indentless : Bool) (rest : List Token)
    (hfuel : 2 * (tokensOf (.record ms)).length ≤ fuel) :
    node fuel handles true indentless (tokensOf (.record ms) ++ rest) =
      some (treeOf (.record ms), rest) := by
  simp only [tokensOf, List.cons_append, List.length_cons, List.length_append] at hfuel
  obtain ⟨fuel, rfl⟩ := Nat.exists_eq_add_one_of_ne_zero (by omega : fuel ≠ 0)
  have hmembers := blockMembers_memberTokens hms handles rest (by omega : _ < fuel)
  have htokens : tokensOf (.record ms) ++ rest =
      .blockRecordStart :: (memberTokens ms ++ .blockEnd :: rest) := by simp [tokensOf]
  rw [htokens, node_record, hmembers, treeOf, assemble]
  rfl

/-- Values and entries are read at once, as they are found at once. -/
theorem read_of_regular {room : Nat} {x : Document} (hx : Regular room x) :
    ReadAsValue x ∧ (isList x = false → ReadAsEntry x) := by
  induction hx with
  | text room s => exact read_scalar rfl (by rw [treeOf, assemble])
  | flag room b => exact read_scalar rfl (by rw [treeOf, assemble])
  | number room n => exact read_scalar rfl (by rw [treeOf, assemble])
  | list flat _ ih =>
    exact ⟨readAsValue_list fun x hx => ⟨flat x hx, (ih x hx).2 (flat x hx)⟩,
      fun h => absurd h (by simp [isList])⟩
  | record _ _ _ ih => exact read_of_leaf (read_record fun m hm => (ih m hm).1)

theorem ofTokens?_tokensOf {room : Nat} {ms : List (String × Document)}
    (h : Regular room (.record ms)) :
    ofTokens? (tokensOf (.record ms)) = some (treeOf (.record ms)) := by
  have hvalues : ∀ m ∈ ms, ReadAsValue m.2 := fun m hm => by
    cases h with
    | record _ _ values => exact (read_of_regular (values m hm)).1
  have hread := read_record hvalues
    (4 * (tokensOf (.record ms)).length + 4) commonHandles false [] (by omega)
  rw [List.append_nil] at hread
  obtain ⟨ts, hts⟩ : ∃ ts, tokensOf (.record ms) = .blockRecordStart :: ts := ⟨_, rfl⟩
  rw [hts] at hread ⊢
  rw [ofTokens?]
  simp only [List.isEmpty_cons, Bool.false_eq_true, if_false, firstDocument, hread,
    Option.bind_eq_bind, Option.bind_some]
  rfl

end Tree

theorem linkAll_map {xs : List Document}
    (hxs : ∀ x ∈ xs, ∀ s, ∃ t, link s (treeOf x) = some (linkedOf x, t)) (s : Anchors) :
    ∃ t, linkAll s (xs.map treeOf) = some (xs.map linkedOf, t) := by
  induction xs generalizing s with
  | nil => exact ⟨s, rfl⟩
  | cons x xs ih =>
    obtain ⟨hx, hxs⟩ := List.forall_mem_cons.mp hxs
    obtain ⟨t, ht⟩ := hx s
    obtain ⟨u, hu⟩ := ih hxs t
    exact ⟨u, by simp [linkAll, ht, hu]⟩

theorem linkMembers_map {ms : List (String × Document)}
    (hms : ∀ m ∈ ms, ∀ s, ∃ t, link s (treeOf m.2) = some (linkedOf m.2, t)) (s : Anchors) :
    ∃ t, linkMembers s (ms.map fun m => (.scalar none none .plain m.1, treeOf m.2)) =
      some (ms.map fun m => (.scalar none .plain m.1, linkedOf m.2), t) := by
  induction ms generalizing s with
  | nil => exact ⟨s, rfl⟩
  | cons m ms ih =>
    obtain ⟨hm, hms⟩ := List.forall_mem_cons.mp hms
    obtain ⟨t, ht⟩ := hm s.grow
    obtain ⟨u, hu⟩ := ih hms t
    refine ⟨u, ?_⟩
    simp [linkMembers, link, Anchors.take, Anchors.keep, ht, hu]

/-- No node of a document is an alias or has an anchor. -/
theorem link_treeOf {room : Nat} {x : Document} (hx : Regular room x) (s : Anchors) :
    ∃ t, link s (treeOf x) = some (linkedOf x, t) := by
  induction hx generalizing s with
  | text room t => exact ⟨_, by rw [treeOf, linkedOf, assemble, assemble, link]⟩
  | flag room b => exact ⟨_, by rw [treeOf, linkedOf, assemble, assemble, link]⟩
  | number room n => exact ⟨_, by rw [treeOf, linkedOf, assemble, assemble, link]⟩
  | list _ _ ih =>
    obtain ⟨t, ht⟩ := linkAll_map ih s.grow
    refine ⟨t.grow, ?_⟩
    rw [treeOf, linkedOf] at ht ⊢
    rw [assemble, assemble, link, Anchors.take, ht]
    rfl
  | record _ _ _ ih =>
    obtain ⟨t, ht⟩ := linkMembers_map ih s.grow
    refine ⟨t.grow, ?_⟩
    simp only [treeOf, linkedOf] at ht ⊢
    rw [assemble, assemble, link, Anchors.take, ht]
    rfl

theorem expand_scalar (s : Anchors) (room : Nat) (tag : Option String) (style : Style)
    (text : String) : expand s room (.scalar tag style text) = pure (.scalar tag style text) := by
  cases room <;> delta expand <;> rfl

theorem expand_list (s : Anchors) (room : Nat) (tag : Option String) (xs : List Linked) :
    expand s (room + 1) (.list tag xs) = Yaml.list tag <$> xs.mapM (expand s room) := by
  delta expand
  rfl

theorem expand_record (s : Anchors) (room : Nat) (tag : Option String)
    (ms : List (Linked × Linked)) :
    expand s (room + 1) (.record tag ms) = Yaml.record tag <$>
      ms.mapM (fun m => do pure (← expand s room m.1, ← expand s room m.2)) := by
  delta expand
  rfl

theorem mapM_map_eq_pure {α β γ : Type} {f : β → StateT Nat Option γ} {g : α → γ} {h : α → β}
    {xs : List α} (hf : ∀ x ∈ xs, f (h x) = pure (g x)) :
    (xs.map h).mapM f = pure (xs.map g) := by
  induction xs with
  | nil => rfl
  | cons x xs ih =>
    obtain ⟨hx, hxs⟩ := List.forall_mem_cons.mp hf
    rw [List.map_cons, List.mapM_cons, hx, ih hxs]
    rfl

/-- Every node stays as it is, whatever number of aliases could still be followed. -/
theorem expand_linkedOf {room : Nat} {x : Document} (hx : Regular room x) (s : Anchors) :
    expand s room (linkedOf x) = pure (ofDocument x) := by
  induction hx with
  | text room t => rw [linkedOf, ofDocument, assemble, assemble, expand_scalar]
  | flag room b => rw [linkedOf, ofDocument, assemble, assemble, expand_scalar]
  | number room n => rw [linkedOf, ofDocument, assemble, assemble, expand_scalar]
  | list _ _ ih =>
    have hentries := mapM_map_eq_pure ih
    rw [linkedOf, ofDocument] at hentries ⊢
    rw [assemble, assemble, expand_list, hentries]
    rfl
  | @record room ms _ _ _ ih =>
    have hmembers : ∀ m ∈ ms, (do pure (← expand s room (.scalar none .plain m.1),
        ← expand s room (linkedOf m.2)) : StateT Nat Option (Yaml × Yaml)) =
          pure (.scalar none .plain m.1, ofDocument m.2) := fun m hm => by
      rw [ih m hm, expand_scalar]
      rfl
    simp only [linkedOf, ofDocument] at hmembers ⊢
    rw [assemble, assemble, expand_record, mapM_map_eq_pure hmembers]
    rfl

/-- A written document is read as its value. -/
theorem parse?_toYaml {ms : List (String × Document)} (h : Regular nestingLimit (.record ms)) :
    parse? (Document.record ms).toYaml = some (ofDocument (.record ms)) := by
  obtain ⟨t, ht⟩ := link_treeOf h {}
  rw [parse?, tokens?_toYaml h, Option.bind_eq_bind, Option.bind_some, Tree.ofTokens?_tokensOf h]
  simp only [Option.bind_eq_bind, Option.bind_some, Tree.expand?, ht, expand_linkedOf h]
  rfl

end Scaffold.Yaml
