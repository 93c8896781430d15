import FieldRules.Session.Rules

/-! # Validators of a session

A validator is made of data and rules, and may be run again and again; data and rules may change
in between.
-/

namespace FieldRules.Session

/-- The setting that makes new validators stop at the first failure. -/
def stopSetting : String := "validation.stop_on_first_failure"

/-- The rule table of a sheet. -/
def tableOf (registry : Nat) (sheet : RuleSheet) : Action RuleTable :=
  inRegistry registry (RuleTable.ofSheet sheet)

/-- Adds a validator. -/
def newValidator (registry : Nat) (data : Keyed Value) (sheet : RuleSheet)
    (overrides : Keyed Value) : Action Nat := do
  let stops ← inSettings mainId (Settings.truth stopSetting (.bool false))
  let table ← tableOf registry sheet
  let session ← get
  let (id, validators) := session.validators.add { registry, data, overrides, stops, table }
  set { session with validators }
  return id

/-- The validator of an identity. -/
def validatorOf (id : Nat) : Action Validator := return (← get).validators.item id

/-- Changes a validator. -/
def changeValidator (id : Nat) (change : Validator → Validator) : Action Unit :=
  modify fun session => { session with validators := session.validators.modify id change }

/-- Changes the data of a validator. -/
def changeData (id : Nat) (change : Keyed Value → Keyed Value) : Action Unit :=
  changeValidator id fun v => { v with data := change v.data }

/-- Replaces the rules of a validator, if they are well-formed. -/
def setRules (id : Nat) (sheet : RuleSheet) : Action Unit := do
  let table ← tableOf (← validatorOf id).registry sheet
  changeValidator id fun v => { v with table }

/-- Runs a validator. -/
def runValidator (id : Nat) (session : Session) : Outcome Bool × Session :=
  let v := session.validators.item id
  let (result, w) :=
    run ⟨v.data, v.overrides, v.stops⟩ v.table (session.workspace v.registry)
  let session := session.absorb v.registry w
  let validators := session.validators.set id { v with errors := result.errors }
  (result.verdict, { session with validators })

/-- Whether the data of a validator are valid. -/
def validate (id : Nat) : Action Bool := runValidator id

/-- The result of running a validator. -/
def result (id : Nat) : Action ValidationResult := do
  let valid ← validate id
  let v ← validatorOf id
  return { valid, data := passedData v.data v.table v.errors, errors := v.errors }

/-- Makes a validator with the main registry and runs it once. -/
def validateOnce (data : Keyed Value) (sheet : RuleSheet) (overrides : Keyed Value)
    (stops : Option Bool) : Action ValidationResult := do
  let id ← newValidator mainId data sheet overrides
  match stops with
  | some stops => changeValidator id fun v => { v with stops }
  | none => pure ()
  result id

/-- The values that passed, if all did. -/
def validateOrFail (data : Keyed Value) (sheet : RuleSheet) (overrides : Keyed Value)
    (stops : Option Bool) : Action (Keyed Value) := do
  let result ← validateOnce data sheet overrides stops
  ofOutcome result.orFail
  return result.data

end FieldRules.Session
