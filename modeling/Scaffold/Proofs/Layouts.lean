import Scaffold.Proofs.LiteralScan
import Scaffold.Proofs.Margins
import Scaffold.Proofs.UseLines

/-!
What the texts of source trees are made of: marks of the language, words, literals, indentations and
lines of comments. Each piece starts at a stage where the one in front of it may end. A property of
the pieces that passes from two texts to the two in a row is a property of every text that is laid
out so.
-/

namespace Scaffold.Source

open Naming Text

/-- What passes from two texts to the two in a row passes to any number of texts. -/
theorem join_of_append {p : String → Prop} (hempty : p "") (happend : ∀ a b, p a → p b → p (a ++ b))
    {parts : List String} (h : ∀ a ∈ parts, p a) : p (String.join parts) := by
  induction parts with
  | nil => exact hempty
  | cons a parts ih =>
    rw [List.forall_mem_cons] at h
    rw [String.join_cons]
    exact happend _ _ h.1 (ih h.2)

/-- Where a text may start and where it ends. -/
inductive Stage where
  /-- At the start of a line. -/
  | fresh
  /-- Behind an indentation by fours or within a line, and where a quote opens a literal. -/
  | operand
  /-- Behind an indentation by fours, or within a line. -/
  | ready
  /-- Within a line. -/
  | written
  /-- Within a line, and not behind a blank. -/
  | inked

namespace Stage

def admits : Stage → Pen → Bool
  | fresh, .margin width => width == 0
  | operand, .margin width => width % 4 == 0
  | ready, .margin width => width % 4 == 0
  | operand, _ => true
  | ready, _ => true
  | written, .ink => true
  | written, .gap => true
  | inked, .ink => true
  | _, _ => false

/-- Whether a quote opens a literal there. -/
def isFree : Stage → Bool
  | fresh => true
  | operand => true
  | _ => false

/-- What is at one stage is also at another. -/
class Within (s t : Stage) : Prop where
  admits_of_admits : ∀ {p : Pen}, s.admits p = true → t.admits p = true
  isFree_of_isFree : t.isFree = true → s.isFree = true

instance (s : Stage) : Within s s := ⟨id, id⟩

instance (s : Stage) : Within s ready :=
  ⟨fun {p} h => by cases s <;> cases p <;> simp_all [admits], nofun⟩

instance : Within fresh operand := ⟨fun {p} h => by cases p <;> simp_all [admits], fun _ => rfl⟩

instance : Within inked written := ⟨fun {p} h => by cases p <;> simp_all [admits], nofun⟩

/-- Whether a text takes every pen at one stage to the other. At an indentation it must start with
a character that is not blank. -/
def drawsTo (s t : Stage) (text : String) : Bool :=
  match s, text.toList with
  | fresh, cs => (cs.foldlM Pen.step (.margin 0)).any t.admits
  | written, cs =>
    (cs.foldlM Pen.step .ink).any t.admits && (cs.foldlM Pen.step .gap).any t.admits
  | inked, cs => (cs.foldlM Pen.step .ink).any t.admits
  | _, c :: cs => !isBlank c && (cs.foldlM Pen.step .ink).any t.admits
  | _, [] => false

/-- Whether a quote behind the text opens a literal, if it should. -/
def freesTo (s t : Stage) (text : String) : Bool :=
  match text.toList.getLast? with
  | none => s.isFree || !t.isFree
  | some c => !Scan.isJoint c || !t.isFree

/-- Whether a mark of the language may stand at one stage and ends at the other. -/
def leadsTo (s t : Stage) (text : String) : Bool :=
  text.toList.all Scan.isPlain && s.drawsTo t text && s.freesTo t text

end Stage

/-- What a text says besides its code: its literals and its documentation, in order. -/
@[ext] structure Content where
  literals : List Literal := []
  docs : List String := []

namespace Content

instance : Append Content where
  append c d := { literals := c.literals ++ d.literals, docs := c.docs ++ d.docs }

theorem docs_append (docs : List String) (literals : List Literal) :
    ({ docs } ++ { literals } : Content) = { literals, docs } :=
  Content.ext (List.nil_append _) (List.append_nil _)

theorem append_empty (c : Content) : c ++ ({} : Content) = c :=
  Content.ext (List.append_nil _) (List.append_nil _)

variable {α : Type}

/-- The content of several texts in a row. -/
def each (f : α → Content) (xs : List α) : Content where
  literals := xs.flatMap fun x => (f x).literals
  docs := xs.flatMap fun x => (f x).docs

theorem each_cons (f : α → Content) (x : α) (xs : List α) : each f (x :: xs) = f x ++ each f xs :=
  rfl

@[simp] theorem each_empty (xs : List α) : each (fun _ => {}) xs = {} := by simp [each]

@[simp] theorem each_literals (f : α → List Literal) (xs : List α) :
    each (fun x => { literals := f x }) xs = { literals := xs.flatMap f } := by simp [each]

@[simp] theorem each_docs (f : α → List String) (xs : List α) :
    each (fun x => { docs := f x }) xs = { docs := xs.flatMap f } := by simp [each]

end Content

/-- The text may stand at the first stage and ends at the second, and this is its content. -/
inductive Laid : Stage → Stage → Content → String → Prop where
  | empty {s : Stage} : Laid s s {} ""
  | append {s t u : Stage} {c d : Content} {a b : String} (ha : Laid s t c a) (hb : Laid t u d b) :
    Laid s u (c ++ d) (a ++ b)
  | weaken {s s' t t' : Stage} {c : Content} {a : String} [s'.Within s] [t.Within t']
    (h : Laid s t c a) : Laid s' t' c a
  | mark {s t : Stage} {text : String} (h : s.leadsTo t text = true) : Laid s t {} text
  | word {text : String} (hne : text ≠ "") (h : ∀ c ∈ text.toList, InSegment c ∨ c = ':') :
    Laid .ready .inked {} text
  | text (s : String) : Laid .operand .inked { literals := [.text s] } (quoted s)
  | char (c : Char) : Laid .operand .inked { literals := [.char c] } (quotedChar c)
  | lifetime : Laid .operand .inked {} "'static"
  | pad (level : ℕ) : Laid .fresh .operand {} (pad level)
  | remark (level : ℕ) (entries : List String) :
    Laid .fresh .fresh {} (commentLines level "//" entries)
  | doc (level : ℕ) {marker : String} (hmarker : marker ∈ ["///", "//!"]) (entries : List String) :
    Laid .fresh .fresh { docs := entries } (commentLines level marker entries)

namespace Laid

variable {s s' t t' u : Stage} {c d : Content} {a b text : String}

/-- One text behind another. -/
theorem before [t.Within t'] (ha : Laid s t c a) (hb : Laid t' u d b) :
    Laid s u (c ++ d) (a ++ b) :=
  .append ha.weaken hb

/-- What follows has no content. -/
theorem followed [t.Within t'] (ha : Laid s t c a) (hb : Laid t' u {} b) : Laid s u c (a ++ b) := by
  have happend := ha.before hb
  rwa [Content.append_empty] at happend

theorem of_eq (h : Laid s t c a) (hc : c = d) : Laid s t d a := hc ▸ h

theorem ite {p : Prop} [Decidable p] (ha : Laid s t c a) (hb : Laid s t c b) :
    Laid s t c (if p then a else b) := by
  split
  · exact ha
  · exact hb

theorem of_isPath {path : String} (h : isPath path = true) : Laid .ready .inked {} path := by
  refine .word ?_ fun c hc => inSegment_of_isPath h hc
  rintro rfl
  exact absurd h (by decide +kernel)

theorem of_isIdentifier {name : String} (h : isIdentifier name = true) :
    Laid .ready .inked {} name :=
  of_isPath (isPath_of_isIdentifier h)

section

variable {text : String}

/-- A mark in front of an operand. -/
theorem lead (h : Stage.ready.leadsTo .operand text = true) : Laid .ready .operand {} text :=
  .mark h

/-- A mark between operands. -/
theorem joint (h : Stage.written.leadsTo .operand text = true) : Laid .written .operand {} text :=
  .mark h

/-- A mark with which an operand ends. -/
theorem close (h : Stage.ready.leadsTo .inked text = true) : Laid .ready .inked {} text := .mark h

/-- A mark with which a line ends. -/
theorem stop (h : Stage.written.leadsTo .fresh text = true) : Laid .written .fresh {} text :=
  .mark h

/-- A line that is but a mark. -/
theorem line (h : Stage.ready.leadsTo .fresh text = true) : Laid .ready .fresh {} text := .mark h

end

theorem newline : Laid .fresh .fresh {} "\n" := .mark (by decide)

theorem lineEnd : Laid .inked .fresh {} "\n" := .mark (by decide)

section

variable {α : Type} {xs : List α} {content : α → Content} {text : α → String}

theorem intercalate {sep : String} (hsep : Laid t s {} sep) (hne : xs ≠ [])
    (h : ∀ x ∈ xs, Laid s t (content x) (text x)) :
    Laid s t (.each content xs) (String.intercalate sep (xs.map text)) := by
  induction xs with
  | nil => exact absurd rfl hne
  | cons x rest ih =>
    rw [List.forall_mem_cons] at h
    cases rest with
    | nil =>
      rw [List.map_cons, List.map_nil, String.intercalate_singleton]
      simpa [Content.each] using h.1
    | cons y rest =>
      rw [List.map_cons, List.map_cons, String.intercalate_cons_cons, Content.each_cons]
      exact (h.1.followed hsep).before (ih (by simp) h.2)

theorem join (h : ∀ x ∈ xs, Laid s s (content x) (text x)) :
    Laid s s (.each content xs) (String.join (xs.map text)) := by
  induction xs with
  | nil => exact .empty
  | cons x rest ih =>
    rw [List.forall_mem_cons] at h
    rw [List.map_cons, String.join_cons, Content.each_cons]
    exact h.1.before (ih h.2)

/-- Operands between commas. -/
theorem commaed (h : ∀ x ∈ xs, Laid .operand .inked (content x) (text x)) :
    Laid .operand .ready (.each content xs) (Source.commaed (xs.map text)) := by
  by_cases hne : xs = []
  · subst hne
    exact Laid.weaken (s := .operand) (t := .operand) .empty
  · exact (intercalate (Laid.joint (by decide)).weaken hne h).weaken

/-- Texts on lines of their own, with an empty line between them. -/
theorem spaced (h : ∀ x ∈ xs, Laid .fresh .fresh (content x) (text x)) :
    Laid .fresh .fresh (.each content xs) (Source.spaced (xs.map text)) := by
  by_cases hne : xs = []
  · subst hne
    exact .empty
  · exact intercalate newline hne h

/-- Members between braces behind a head. -/
theorem braced (level : ℕ) {head : String} (hhead : Laid .fresh .inked {} head)
    (h : ∀ x ∈ xs, Laid .fresh .fresh (content x) (text x)) :
    Laid .fresh .fresh (.each content xs) (Source.braced level head (xs.map text)) := by
  rw [Source.braced]
  split
  · next hempty =>
    obtain rfl : xs = [] := by simpa using hempty
    exact hhead.followed (.stop (by decide))
  · exact hhead.followed (.stop (by decide)) |>.before (spaced h)
      |>.followed (.pad level) |>.followed (.line (by decide))

end

theorem parenthesized (h : Laid .operand .inked c text) (loose : Bool) :
    Laid .operand .inked c (Source.parenthesized loose text) := by
  have hwithin : Laid .ready .inked c ("(" ++ text ++ ")") :=
    (Laid.lead rfl).before h |>.followed (.close rfl)
  exact .ite hwithin.weaken h

/-- Lines between braces, the closing one at the level of the line that opens them. -/
theorem braces {head lines : String} (hhead : Laid .operand .inked c head)
    (hlines : Laid .fresh .fresh d lines) (level : ℕ) :
    Laid .operand .inked (c ++ d) (head ++ " \x7b\n" ++ lines ++ Source.pad level ++ "\x7d") :=
  (hhead.followed (.stop (by decide))).before hlines |>.followed (.pad level)
    |>.followed (.close rfl)

/-- A line in front of the items, with an empty line behind it unless it is empty. -/
theorem leading (h : Laid .fresh .fresh c text) : Laid .fresh .fresh c (File.leading text) := by
  unfold File.leading
  split
  · next hempty => rwa [String.isEmpty_iff.mp hempty] at h
  · exact h.followed newline

end Laid

end Scaffold.Source
