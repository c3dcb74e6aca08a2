import DaqServer.Config.Value

/-!
# Wrapped values

In a document a table may be a wrapper: it stands for the value under a reserved key, and its other
keys say nothing. A second reserved key belongs to a mark that a document has no way to write.
`ConfigTable.unwrap?` puts the value for every wrapper below the keys of a table.
-/

namespace DaqServer

def wrappedKey : String := "___figment_value_value"

def markKey : String := "___figment_value_id"

/-- What a table stands for that holds no further wrappers; nothing if it has a mark. -/
def ConfigTable.wrapped? (entries : ConfigTable) : Option ConfigValue :=
  if (entries.lookup markKey).isSome then none
  else some ((entries.lookup wrappedKey).getD (.table entries))

mutual

/-- A value without wrappers; nothing if a mark occurs in it. -/
def ConfigValue.unwrap? : ConfigValue → Option ConfigValue
  | .list values => (ConfigValue.unwrapAll? values).map .list
  | .table entries => (ConfigTable.unwrap? entries).bind ConfigTable.wrapped?
  | v => some v

def ConfigValue.unwrapAll? : List ConfigValue → Option (List ConfigValue)
  | [] => some []
  | v :: rest => do return (← v.unwrap?) :: (← ConfigValue.unwrapAll? rest)

def ConfigTable.unwrap? : ConfigTable → Option ConfigTable
  | [] => some []
  | (key, v) :: rest => do return (key, ← v.unwrap?) :: (← ConfigTable.unwrap? rest)

end

@[simp] theorem ConfigTable.unwrap?_nil : ConfigTable.unwrap? [] = some [] := by
  rw [ConfigTable.unwrap?]

theorem ConfigTable.unwrap?_cons (key : String) (v : ConfigValue) (rest : ConfigTable) :
    ConfigTable.unwrap? ((key, v) :: rest) =
      v.unwrap?.bind fun w => (ConfigTable.unwrap? rest).map fun t => (key, w) :: t := by
  rw [ConfigTable.unwrap?]
  cases v.unwrap? <;> cases ConfigTable.unwrap? rest <;> rfl

/-- A wrapper of wrappers stands for the innermost value. -/
theorem ConfigValue.unwrap?_wrapper (v : ConfigValue) :
    (ConfigValue.table [(wrappedKey, v)]).unwrap? = v.unwrap? := by
  rw [ConfigValue.unwrap?, ConfigTable.unwrap?_cons]
  cases v.unwrap? <;>
    simp [ConfigTable.wrapped?, wrappedKey, markKey]

end DaqServer
