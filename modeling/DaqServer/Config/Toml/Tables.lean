import DaqServer.Config.Value

/-!
# Tables under construction

While a document is read, a table remembers how it came about. A table made only because a header or
a key with points passed through it may still be completed; one that was given once may not be given
again; and a value is never reopened. `putPair` adds a key with its value, `openTable` and
`openElement` are the two kinds of header.
-/

namespace DaqServer.Toml

/-- What a key of an unfinished document leads to. -/
inductive Node
  | value (v : ConfigValue)
  /-- A table. It is implied if no header or brace has given it, and dotted if keys with points have
  made it. -/
  | table (implied dotted : Bool) (entries : List (String × Node))
  /-- The elements of a list of tables, the last one first. -/
  | tables (elements : List Node)
  deriving Inhabited

namespace Node

def fresh (implied dotted : Bool) : Node := .table implied dotted []

mutual

def toValue : Node → ConfigValue
  | .value v => v
  | .table _ _ entries => .table (toTable entries)
  | .tables elements => .list (toList elements).reverse

def toTable : List (String × Node) → ConfigTable
  | [] => []
  | (key, node) :: rest => (key, node.toValue) :: toTable rest

def toList : List Node → List ConfigValue
  | [] => []
  | node :: rest => node.toValue :: toList rest

end

/-- Change the table that a path leads to; tables that are missing on the way are made. A path of a
key with points (`dotted`) leads only through tables that may still be completed. -/
def within (dotted : Bool) (change : Node → Option Node) : (path : List String) → Node → Option Node
  | [], node => change node
  | key :: path, .table implied isDotted entries =>
      let enter (node : Node) : Option Node := within dotted change path node
      let entered : Option Node := match entries.lookup key with
        | none => enter (.fresh true dotted)
        | some (.tables (last :: earlier)) => (enter last).map fun t => .tables (t :: earlier)
        | some (.table innerImplied innerDotted inner) =>
            if dotted && !innerImplied then none
            else enter (.table innerImplied innerDotted inner)
        | some _ => none
      entered.map fun node => .table implied isDotted (setKey key node entries)
  | _ :: _, _ => none

/-- Add a new key to a table. A key with points ends in a table that such keys have made, a plain
key in one that they have not. -/
def add (plain : Bool) (key : String) (node : Node) : Node → Option Node
  | .table implied dotted entries =>
      if dotted == plain || (entries.lookup key).isSome then none
      else some (.table implied dotted (setKey key node entries))
  | _ => none

def putPair (path : List String) (v : ConfigValue) (table : Node) : Option Node :=
  match path.getLast? with
  | none => none
  | some key =>
      let parents := path.dropLast
      table.within true (add parents.isEmpty key (.value v)) parents

/-- Open the table of a header: it is new or was only implied so far. -/
def openTable (path : List String) (document : Node) : Option Node :=
  match path.getLast? with
  | none => none
  | some key =>
      let give : Node → Option Node
        | .table implied dotted entries =>
            match entries.lookup key with
            | none => some (.table implied dotted (setKey key (.fresh false false) entries))
            | some (.table true false inner) =>
                some (.table implied dotted (setKey key (.table false false inner) entries))
            | some _ => none
        | _ => none
      document.within false give path.dropLast

/-- Open a further element of a list of tables. -/
def openElement (path : List String) (document : Node) : Option Node :=
  match path.getLast? with
  | none => none
  | some key =>
      let give : Node → Option Node
        | .table implied dotted entries =>
            let extended (elements : List Node) : Option Node :=
              some (.table implied dotted
                (setKey key (.tables (.fresh false false :: elements)) entries))
            match entries.lookup key with
            | none => extended []
            | some (.tables elements) => extended elements
            | some _ => none
        | _ => none
      document.within false give path.dropLast

end Node

end DaqServer.Toml
