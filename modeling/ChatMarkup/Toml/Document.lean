import ChatMarkup.Toml.Statement

/-! # The table that the statements of a document make

A key-value goes into the table of the header before it. The tables on the way to its last key are
made by the dotted key itself, or were made by an earlier one. A header names a table that no statement
has named before, except inside a longer header; a header in double brackets adds an element to an
array that only such headers make. The way to a header's last key leads into the last element of an
array, never into an array or a table that was written as a value. No key is given twice.
-/
namespace ChatMarkup.Toml

/-- Replaces the value of a key, or adds the key behind the others. -/
def setEntry (name : String) (v : Located Value) : Entries → Entries
  | [] => [(name, v)]
  | (n, w) :: es => if n = name then (n, v) :: es else (n, w) :: setEntry name v es

/-- Applies a change to the last item of a list. -/
def changeLast? {α : Type} (f : α → Option α) : List α → Option (List α)
  | [] => none
  | [a] => (f a).map fun b => [b]
  | a :: as => (changeLast? f as).map (a :: ·)

/-- Follows the keys on the way and applies a change to the entries at its end. A missing table is made
with the origin `made`, and `enter` says which tables may be entered. -/
def changeAt? (made : TableOrigin) (enter : TableOrigin → Bool)
    (change : TableOrigin → Entries → Option Entries) :
    List Key → TableOrigin → Entries → Option Entries
  | [], origin, es => change origin es
  | k :: ks, _, es =>
    match es.lookup k.value with
    | none => do
      let inner ← changeAt? made enter change ks made []
      return setEntry k.value ⟨.table made inner, k.range⟩ es
    | some ⟨.table origin inner, range⟩ =>
      if enter origin then do
        let inner ← changeAt? made enter change ks origin inner
        return setEntry k.value ⟨.table origin inner, range⟩ es
      else none
    | some ⟨.array .headers items, range⟩ => do
      let items ← changeLast? (fun item =>
        match item with
        | ⟨.table origin inner, itemRange⟩ => do
          let inner ← changeAt? made enter change ks origin inner
          return ⟨.table origin inner, itemRange⟩
        | _ => none) items
      return setEntry k.value ⟨.array .headers items, range⟩ es
    | some _ => none

def isOpen (origin : TableOrigin) : Bool := origin = .implied || origin = .dotted

/-- Adds a key-value to the table in which it stands. A dotted key ends in a table that dotted keys
made. -/
def addKeyValue? (path : Path) (v : Located Value) (es : Entries) : Option Entries :=
  changeAt? .dotted isOpen (fun origin inner =>
    if (path.parents.isEmpty || origin = .dotted) && (inner.lookup path.last.value).isNone then
      some (inner ++ [(path.last.value, v)])
    else none) path.parents .header es

mutual
def Written.value? : Written → Option Value
  | .leaf v => some v
  | .array items => (itemValues? items).map (.array .written)
  | .inline entries => (addWritten? entries []).map (.table .inline)
def itemValues? : List (Located Written) → Option (List (Located Value))
  | [] => some []
  | ⟨w, range⟩ :: items => do
    let v ← w.value?
    return ⟨v, range⟩ :: (← itemValues? items)
def addWritten? : List (KeyValue Written) → Entries → Option Entries
  | [], es => some es
  | ⟨path, ⟨w, range⟩⟩ :: kvs, es => do
    let v ← w.value?
    addWritten? kvs (← addKeyValue? path ⟨v, range⟩ es)
end

/-- A header and the key-values up to the next one. -/
structure Section where
  header : Header
  entries : List (KeyValue Written)

/-- The key-values in front of the first header, and the sections. -/
def sections : List Statement → List (KeyValue Written) × List Section
  | [] => ([], [])
  | .keyValue kv :: ss =>
    let (kvs, rest) := sections ss
    (kv :: kvs, rest)
  | .header h :: ss =>
    let (kvs, rest) := sections ss
    ([], ⟨h, kvs⟩ :: rest)

def addSection? (es : Entries) (s : Section) : Option Entries :=
  let name := s.header.path.last.value
  let range := s.header.range
  changeAt? .implied (· ≠ .inline) (fun _ parent =>
    if s.header.isElement then do
      let element : Located Value := ⟨.table .header (← addWritten? s.entries []), range⟩
      match parent.lookup name with
      | none => return setEntry name ⟨.array .headers [element], range⟩ parent
      | some ⟨.array .headers items, first⟩ =>
        return setEntry name ⟨.array .headers (items ++ [element]), first⟩ parent
      | some _ => none
    else do
      let before ← match parent.lookup name with
        | none => some []
        | some ⟨.table .implied inner, _⟩ => some inner
        | some _ => none
      return setEntry name ⟨.table .header (← addWritten? s.entries before), range⟩ parent)
    s.header.path.parents .header es

/-- The entries of a document, in the order in which they were first named; nothing for a text that
is no TOML document. -/
def parse? (text : String) : Option Entries := do
  let (kvs, ss) := sections (← readStatements? text.toList)
  ss.foldlM addSection? (← addWritten? kvs [])

end ChatMarkup.Toml
