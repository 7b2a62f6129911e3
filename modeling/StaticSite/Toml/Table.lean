import StaticSite.Toml.Value

/-!
Tables while a document is read. Each table knows how it came to be, because that decides who may still
add to it: a header may complete a table that was only implied by other headers, and dotted keys may
complete a table that was made by dotted keys. A finished value is closed to both.
-/

namespace StaticSite.Toml

/-- How a table came to be. -/
inductive Origin
  /-- It is the document, an inline table, or has a header of its own. -/
  | written
  /-- It lies on the way to a table with a header. -/
  | implied
  /-- It lies on the way of a dotted key. -/
  | dotted
deriving DecidableEq, Repr

inductive Node
  | value (value : Value)
  | table (origin : Origin) (entries : List (String × Node))
  /-- Tables with the same header in double brackets. Only the last of them is still open. -/
  | tables (earlier : List (List (String × Node))) (last : List (String × Node))

/-- The entries of an open table. -/
abbrev Nodes := List (String × Node)

mutual

/-- The value of a node. -/
def Node.toValue : Node → Value
  | .value value => value
  | .table _ entries => .table (toEntries entries)
  | .tables earlier last => .array (toItems earlier ++ [.table (toEntries last)])

/-- The entries of a finished table. -/
def toEntries : List (String × Node) → Entries
  | [] => []
  | (key, node) :: rest => (key, node.toValue) :: toEntries rest

def toItems : List (List (String × Node)) → List Value
  | [] => []
  | entries :: rest => .table (toEntries entries) :: toItems rest

end

namespace Nodes

/-- The node of a key. -/
def get? (nodes : Nodes) (key : String) : Option Node := nodes.lookup key

/-- The table with a node put at a key, in the place of the node that was there. -/
def put (key : String) (node : Node) : Nodes → Nodes
  | [] => [(key, node)]
  | (k, n) :: rest => if k == key then (key, node) :: rest else (k, n) :: put key node rest

/-- What is done to a table. There is no result if the table does not allow it. -/
abbrev Change := Origin → Nodes → Option Nodes

/-- A change of the table that keys lead to. Tables that are missing on the way are made; dotted keys do
not lead through a table that has a header. -/
def changeAt (byDots : Bool) (change : Change) : List String → Change
  | [] => change
  | key :: keys => fun _ nodes =>
    match nodes.get? key with
    | none =>
      let origin := if byDots then .dotted else .implied
      (changeAt byDots change keys origin []).map fun inner =>
        nodes.put key (.table origin inner)
    | some (.table origin inner) =>
      if byDots && origin == .written then none
      else
        (changeAt byDots change keys origin inner).map fun inner =>
          nodes.put key (.table origin inner)
    | some (.tables earlier last) =>
      (changeAt byDots change keys .written last).map fun last =>
        nodes.put key (.tables earlier last)
    | some (.value _) => none

/-- Adds a value under a new key. A key without dots does not belong into a table of dotted keys, nor a
dotted one into any other. -/
def assign (keys : List String) (value : Value) : Change :=
  let key := keys.getLastD ""
  let plain := keys.length == 1
  changeAt true
    (fun origin nodes =>
      if (origin == .dotted) == plain || (nodes.get? key).isSome then none
      else some (nodes.put key (.value value)))
    keys.dropLast

/-- Opens the table of a header in single brackets. -/
def openTable (keys : List String) : Change :=
  let key := keys.getLastD ""
  changeAt false
    (fun _ nodes =>
      match nodes.get? key with
      | none => some (nodes.put key (.table .written []))
      | some (.table .implied inner) => some (nodes.put key (.table .written inner))
      | some _ => none)
    keys.dropLast

/-- Opens one more table of a header in double brackets. -/
def openItem (keys : List String) : Change :=
  let key := keys.getLastD ""
  changeAt false
    (fun _ nodes =>
      match nodes.get? key with
      | none => some (nodes.put key (.tables [] []))
      | some (.tables earlier last) => some (nodes.put key (.tables (earlier ++ [last]) []))
      | some _ => none)
    keys.dropLast

/-- Adds a value to the table of a header. -/
def assignBelow (header keys : List String) (value : Value) : Change :=
  changeAt false (assign keys value) header

end Nodes

end StaticSite.Toml
