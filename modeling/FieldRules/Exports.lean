import FieldRules.Fault

/-! # Exported names

The names that the package makes public, with what each of them stands for: a text, the list of
names, or something that is known by its own name.
-/

namespace FieldRules

/-- The names that the package makes public. -/
def publicNames : List String :=
  ["__version__", "__license__", "Validator", "ValidationError", "ValidationResult", "validate",
    "validate_or_fail", "Rule", "MISSING", "RuleRegistry", "get_registry",
    "extend_available_rules", "RuleError", "UnknownRuleError", "InvalidRuleError",
    "MalformedRuleStringError", "Config", "get_config", "Logger", "get_logger",
    "configure_logging"]

/-- What an exported name stands for. -/
def exported (name : String) : Outcome Value :=
  if name = "__version__" then .ok (.str "0.1.0")
  else if name = "__license__" then .ok (.str "MIT")
  else if name = "__all__" then .ok (.list (publicNames.map .str))
  else if publicNames.contains name then .ok (.str name)
  else .error (.noExport name)

end FieldRules
