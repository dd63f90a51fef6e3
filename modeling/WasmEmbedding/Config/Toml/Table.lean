import WasmEmbedding.Config.Read

/-! # TOML tables under construction

A TOML text builds its tables piece by piece, and says of each piece whether it may
still be added to. A table is *implicit* as long as it is only the way to another
one, and *dotted* if a key with points made it. Headers may take over an implicit
table that no key made; keys may go on through implicit tables only, and must end in
a dotted table exactly if they have points themselves.
-/
namespace WasmEmbedding.Config.Toml

/-- A piece of the text's tree. -/
inductive Node where
  | value (v : Document)
  | table (implicit dotted : Bool) (entries : List (String × Node))
  /-- The tables of headers in double brackets, in order. -/
  | tables (items : List (List (String × Node)))

namespace Node

/-- The entries of a tree. -/
abbrev Entries := List (String × Node)

/-- Replaces the node under a key, or appends it. -/
def put (key : String) (n : Node) : Entries → Entries
  | [] => [(key, n)]
  | (k, m) :: rest => if k = key then (k, n) :: rest else (k, m) :: put key n rest

/-- Changes the table that a path leads to, making implicit tables where there is
nothing yet. Through a list of tables the way goes to its last. -/
def alter (dots : Bool) (f : Bool → Bool → Entries → Option Node) :
    List String → Bool → Bool → Entries → Option Node
  | [], implicit, dotted, es => f implicit dotted es
  | k :: ks, implicit, dotted, es => do
    let inner ← match es.lookup k with
      | none => alter dots f ks true dots []
      | some (.value _) => none
      | some (.table i d es') => if dots && !i then none else alter dots f ks i d es'
      | some (.tables items) =>
        match items.getLast? with
        | none => none
        | some last =>
          match ← alter dots f ks false false last with
          | .table _ _ last' => some (.tables (items.dropLast ++ [last']))
          | _ => none
    return .table implicit dotted (put k inner es)

/-- Opens the table of a header. -/
def openTable (key : String) (implicit dotted : Bool) (es : Entries) : Option Node :=
  match es.lookup key with
  | none => some (.table implicit dotted (put key (.table false false []) es))
  | some (.table true false es') =>
    some (.table implicit dotted (put key (.table false false es') es))
  | _ => none

/-- Opens the next table of a header in double brackets. -/
def openNext (key : String) (implicit dotted : Bool) (es : Entries) : Option Node :=
  match es.lookup key with
  | none => some (.table implicit dotted (put key (.tables [[]]) es))
  | some (.tables items) => some (.table implicit dotted (put key (.tables (items ++ [[]])) es))
  | _ => none

/-- Gives a new key its value; `path` leads from the table of the header to the key's
own. -/
def assign (path : List String) (key : String) (v : Document) (implicit dotted : Bool)
    (es : Entries) : Option Node :=
  alter true (fun i d inner =>
    if d == path.isEmpty then none
    else match inner.lookup key with
      | none => some (.table i d (put key (.value v) inner))
      | some _ => none) path implicit dotted es

mutual

/-- The finished document. -/
def toDocument : Node → Document
  | .value v => v
  | .table _ _ es => .table (documents es)
  | .tables items => .list (tableDocuments items)

/-- The finished entries of a table. -/
def documents : List (String × Node) → List (Option String × Document)
  | [] => []
  | (k, n) :: rest => (some k, toDocument n) :: documents rest

/-- The finished tables of a list. -/
def tableDocuments : List (List (String × Node)) → List Document
  | [] => []
  | es :: rest => .table (documents es) :: tableDocuments rest

end

end Node

end WasmEmbedding.Config.Toml
