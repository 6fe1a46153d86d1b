import Scaffold.Yaml.Token

/-!
The documents of a token list, as trees whose nodes may carry an anchor and refer to one another by
alias. A missing node is an empty plain scalar.
-/

namespace Scaffold.Yaml

inductive Tree where
  /-- An alias, by the name of the anchor it refers to. -/
  | reference (name : String)
  | scalar (anchor tag : Option String) (style : Style) (text : String)
  | list (anchor tag : Option String) (items : List Tree)
  | record (anchor tag : Option String) (members : List (Tree × Tree))

namespace Tree

def empty : Tree := scalar none none .plain ""

/-- The anchor and the tag in front of a node, in either order. -/
structure Properties where
  anchor : Option String := none
  tag : Option Tag := none

def properties : List Token → Properties × List Token
  | .anchor a :: .tag t :: ts => ({ anchor := some a, tag := some t }, ts)
  | .tag t :: .anchor a :: ts => ({ anchor := some a, tag := some t }, ts)
  | .anchor a :: ts => ({ anchor := some a }, ts)
  | .tag t :: ts => ({ tag := some t }, ts)
  | ts => ({}, ts)

/-- What each tag handle of a document stands for. -/
abbrev Handles := List (String × List UInt8)

/-- The tag that some bytes spell. Bytes that are no text make an empty tag, which says nothing of
its node. -/
def tagOfBytes (bytes : List UInt8) : String := (String.fromUTF8? ⟨bytes.toArray⟩).getD ""

/-- The full tag, if its handle is known. -/
def fullTag? (handles : Handles) : Option Tag → Option (Option String)
  | none => some none
  | some t =>
    if t.handle.isEmpty then some (some (tagOfBytes t.suffix))
    else (handles.lookup t.handle).map fun lead => some (tagOfBytes (lead ++ t.suffix))

/-- A lone exclamation mark keeps a scalar untagged. -/
def scalarTag (tag : Option String) : Option String := tag.filter (· != "!")

mutual

/-- A node. Its parts are blocks only if `block` holds, and entries may follow without an opening
token if `indentless` holds. -/
def node : Nat → Handles → Bool → Bool → List Token → Option (Tree × List Token)
  | 0, _, _, _, _ => none
  | fuel + 1, handles, block, indentless, ts =>
    match ts with
    | .reference name :: ts => some (reference name, ts)
    | _ => do
      let (p, ts) := properties ts
      let tag ← fullTag? handles p.tag
      match ts with
      | .scalar style text :: ts => some (scalar p.anchor (scalarTag tag) style text, ts)
      | .flowListStart :: ts => do
        let (xs, ts) ← flowItems fuel handles true ts
        some (list p.anchor tag xs, ts)
      | .flowRecordStart :: ts => do
        let (ms, ts) ← flowMembers fuel handles true ts
        some (record p.anchor tag ms, ts)
      | .blockEntry :: _ =>
        if indentless then do
          let (xs, ts) ← looseEntries fuel handles ts
          some (list p.anchor tag xs, ts)
        else noContent p tag ts
      | .blockListStart :: rest =>
        if block then do
          let (xs, ts) ← entries fuel handles rest
          some (list p.anchor tag xs, ts)
        else noContent p tag ts
      | .blockRecordStart :: rest =>
        if block then do
          let (ms, ts) ← blockMembers fuel handles rest
          some (record p.anchor tag ms, ts)
        else noContent p tag ts
      | ts => noContent p tag ts

/-- An anchor or a tag alone makes an empty scalar. -/
def noContent (p : Properties) (tag : Option String) (ts : List Token) :
    Option (Tree × List Token) :=
  if p.anchor.isSome || tag.isSome then some (scalar p.anchor tag .plain "", ts) else none

/-- The entries of a block list and its end. -/
def entries : Nat → Handles → List Token → Option (List Tree × List Token)
  | 0, _, _ => none
  | fuel + 1, handles, ts =>
    match ts with
    | .blockEnd :: ts => some ([], ts)
    | .blockEntry :: ts => do
      let (x, ts) ←
        match ts with
        | .blockEntry :: _ => some (empty, ts)
        | .blockEnd :: _ => some (empty, ts)
        | _ => node fuel handles true false ts
      let (xs, ts) ← entries fuel handles ts
      some (x :: xs, ts)
    | _ => none

/-- The entries of a list that stands at the indent of its key. -/
def looseEntries : Nat → Handles → List Token → Option (List Tree × List Token)
  | 0, _, _ => none
  | fuel + 1, handles, ts =>
    match ts with
    | .blockEntry :: ts => do
      let (x, ts) ←
        match ts with
        | .blockEntry :: _ => some (empty, ts)
        | .key :: _ => some (empty, ts)
        | .value :: _ => some (empty, ts)
        | .blockEnd :: _ => some (empty, ts)
        | _ => node fuel handles true false ts
      let (xs, ts) ← looseEntries fuel handles ts
      some (x :: xs, ts)
    | ts => some ([], ts)

/-- The key or value of a block record. -/
def blockPart : Nat → Handles → List Token → Option (Tree × List Token)
  | 0, _, _ => none
  | fuel + 1, handles, ts =>
    match ts with
    | .key :: _ => some (empty, ts)
    | .value :: _ => some (empty, ts)
    | .blockEnd :: _ => some (empty, ts)
    | _ => node fuel handles true true ts

/-- The members of a block record and its end. -/
def blockMembers : Nat → Handles → List Token → Option (List (Tree × Tree) × List Token)
  | 0, _, _ => none
  | fuel + 1, handles, ts =>
    match ts with
    | .blockEnd :: ts => some ([], ts)
    | .key :: ts => do
      let (k, ts) ← blockPart fuel handles ts
      let (v, ts) ←
        match ts with
        | .value :: ts => blockPart fuel handles ts
        | ts => some (empty, ts)
      let (ms, ts) ← blockMembers fuel handles ts
      some ((k, v) :: ms, ts)
    | _ => none

/-- The items of a list in brackets and its end. A key among them makes a record of one member. -/
def flowItems : Nat → Handles → Bool → List Token → Option (List Tree × List Token)
  | 0, _, _, _ => none
  | fuel + 1, handles, first, ts =>
    match ts with
    | .flowListEnd :: ts => some ([], ts)
    | _ => do
      let ts ←
        if first then some ts
        else
          match ts with
          | .flowEntry :: ts => some ts
          | _ => none
      match ts with
      | .flowListEnd :: ts => some ([], ts)
      | .key :: ts => do
        let (x, ts) ← singleMember fuel handles ts
        let (xs, ts) ← flowItems fuel handles false ts
        some (x :: xs, ts)
      | _ => do
        let (x, ts) ← node fuel handles false false ts
        let (xs, ts) ← flowItems fuel handles false ts
        some (x :: xs, ts)

/-- A member among the items of a list. A token that stands in place of the key is passed over. -/
def singleMember : Nat → Handles → List Token → Option (Tree × List Token)
  | 0, _, _ => none
  | fuel + 1, handles, ts => do
    let (k, ts) ←
      match ts with
      | .value :: ts => some (empty, ts)
      | .flowEntry :: ts => some (empty, ts)
      | .flowListEnd :: ts => some (empty, ts)
      | _ => node fuel handles false false ts
    let (v, ts) ←
      match ts with
      | .value :: .flowEntry :: ts => some (empty, .flowEntry :: ts)
      | .value :: .flowListEnd :: ts => some (empty, .flowListEnd :: ts)
      | .value :: ts => node fuel handles false false ts
      | ts => some (empty, ts)
    some (record none none [(k, v)], ts)

/-- The key or value of a record in braces. -/
def flowPart : Nat → Handles → List Token → Option (Tree × List Token)
  | 0, _, _ => none
  | fuel + 1, handles, ts =>
    match ts with
    | .flowEntry :: _ => some (empty, ts)
    | .flowRecordEnd :: _ => some (empty, ts)
    | _ => node fuel handles false false ts

/-- The members of a record in braces and its end. An item without a key mark has no value. -/
def flowMembers : Nat → Handles → Bool → List Token → Option (List (Tree × Tree) × List Token)
  | 0, _, _, _ => none
  | fuel + 1, handles, first, ts =>
    match ts with
    | .flowRecordEnd :: ts => some ([], ts)
    | _ => do
      let ts ←
        if first then some ts
        else
          match ts with
          | .flowEntry :: ts => some ts
          | _ => none
      match ts with
      | .flowRecordEnd :: ts => some ([], ts)
      | .key :: ts => do
        let (k, ts) ←
          match ts with
          | .value :: _ => some (empty, ts)
          | _ => flowPart fuel handles ts
        let (v, ts) ←
          match ts with
          | .value :: ts => flowPart fuel handles ts
          | ts => some (empty, ts)
        let (ms, ts) ← flowMembers fuel handles false ts
        some ((k, v) :: ms, ts)
      | _ => do
        let (k, ts) ← node fuel handles false false ts
        let (ms, ts) ← flowMembers fuel handles false ts
        some ((k, empty) :: ms, ts)

end

/-- The handles that every document knows, after those it declares. -/
def commonHandles : Handles :=
  [("!", "!".toUTF8.toList), ("!!", "tag:yaml.org,2002:".toUTF8.toList)]

/-- The directives in front of a document. A version is given once and is 1.1 or 1.2; a handle is
declared once. -/
def directives? (version : Bool) (handles : Handles) :
    List Token → Option (Handles × List Token)
  | .directive (.version major minor) :: ts =>
    if version || major != 1 || !(minor == 1 || minor == 2) then none
    else directives? true handles ts
  | .directive (.tag handle lead) :: ts =>
    if handles.any (·.1 == handle) then none
    else directives? version (handles ++ [(handle, lead)]) ts
  | ts => some (handles ++ commonHandles, ts)

/-- The content behind the start mark of a document. -/
def content (fuel : Nat) (handles : Handles) (ts : List Token) : Option (Tree × List Token) :=
  match ts with
  | [] => some (empty, ts)
  | .directive _ :: _ => some (empty, ts)
  | .documentStart :: _ => some (empty, ts)
  | .documentEnd :: _ => some (empty, ts)
  | _ => node fuel handles true false ts

def isDocumentEnd : Token → Bool
  | .documentEnd => true
  | _ => false

def dropDocumentEnd : List Token → List Token
  | .documentEnd :: ts => ts
  | ts => ts

/-- A document that opens with directives or a start mark. -/
def explicitDocument (fuel : Nat) (ts : List Token) : Option (Tree × List Token) := do
  let (handles, ts) ← directives? false [] ts
  match ts with
  | .documentStart :: ts => do
    let (x, ts) ← content fuel handles ts
    some (x, dropDocumentEnd ts)
  | _ => none

/-- Only the first document may open without a mark. -/
def firstDocument (fuel : Nat) (ts : List Token) : Option (Tree × List Token) :=
  match ts with
  | .directive _ :: _ => explicitDocument fuel ts
  | .documentStart :: _ => explicitDocument fuel ts
  | _ => do
    let (x, ts) ← node fuel commonHandles true false ts
    some (x, dropDocumentEnd ts)

/-- The documents of a text that holds one at most; an empty text holds none. -/
def ofTokens? (ts : List Token) : Option Tree := do
  let fuel := 4 * ts.length + 4
  if ts.isEmpty then some empty
  else
    let (x, ts) ← firstDocument fuel ts
    if (ts.dropWhile isDocumentEnd).isEmpty then some x else none

end Tree

end Scaffold.Yaml
