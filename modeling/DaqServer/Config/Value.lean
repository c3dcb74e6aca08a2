/-!
# Configuration values

What a configuration source gives: a tree of tables and lists over plain values. `merge` lays one
value over another; tables are merged key by key and everything else is replaced.
-/

namespace DaqServer

/-- A value of a configuration source. No setting is a fraction or a date, so that these two keep
nothing but their sort. -/
inductive ConfigValue
  | bool (b : Bool)
  | integer (n : Int)
  | fraction
  | date
  | text (s : String)
  | list (values : List ConfigValue)
  | table (entries : List (String × ConfigValue))
  deriving Repr, Inhabited

abbrev ConfigTable := List (String × ConfigValue)

/-- Set what a key leads to; a new key comes last. -/
def setKey {α : Type} (key : String) (value : α) (entries : List (String × α)) :
    List (String × α) :=
  if (entries.lookup key).isSome then
    entries.map fun e => if e.1 == key then (key, value) else e
  else entries ++ [(key, value)]

mutual

/-- A value laid over another. -/
def ConfigValue.merge (lower : ConfigValue) : ConfigValue → ConfigValue
  | .table upper =>
      match lower with
      | .table entries => .table (ConfigTable.merge entries upper)
      | _ => .table upper
  | upper => upper

/-- A table laid over another, key by key. -/
def ConfigTable.merge (lower : ConfigTable) : ConfigTable → ConfigTable
  | [] => lower
  | (key, value) :: rest =>
      let merged := match lower.lookup key with
        | none => value
        | some old => old.merge value
      ConfigTable.merge (setKey key merged lower) rest

end

namespace ConfigTable

/-- The table in which a path of keys leads to a value. -/
def atPath : (path : List String) → ConfigValue → ConfigTable
  | [], _ => []
  | [key], value => [(key, value)]
  | key :: path, value => [(key, .table (atPath path value))]

end ConfigTable

end DaqServer
