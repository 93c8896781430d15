import FieldRules.Proofs.Template.Escapes
import FieldRules.Proofs.Validation.Overrides

/-! # Messages that are not made

A rule's own message is its template, filled in or left as it is written, unless the template lets
a fault out. The escapes of a template say exactly when that happens, for templates and bounds of
every kind and whatever the host gives values for members; a template whose fields go no further
than a name, and ask for no layout, has none.
-/

namespace FieldRules

open Outcome (Throws)

namespace Template

/-- A fault that the host raises over a member, or over one of its objects. -/
inductive Host.Raises (host : Host) : Fault → Prop where
  | member {thing : Thing} {name : String} {fault : Fault}
      (raised : host.member thing name = .error fault) : Raises host fault
  | item {id : Nat} {key : Value} {fault : Fault} (raised : host.item id key = .error fault) :
      Raises host fault
  | print {id : Nat} {fault : Fault} (raised : host.print id = .error fault) : Raises host fault
  | plain {id : Nat} {fault : Fault} (raised : host.plain id = .error fault) : Raises host fault
  | layOut {id : Nat} {spec : List Char} {fault : Fault}
      (raised : host.layOut id spec = .error fault) : Raises host fault

/-- What templates let out: an operation that a type does not have, a number that is too great, a
missing entry, or what the host raises. -/
def IsLoose (host : Host) (fault : Fault) : Prop :=
  fault.family = .type ∨ fault.family = .overflow ∨ fault.family = .key ∨ host.Raises fault

theorem Blocked.loose {host : Host} {thing : Thing} {way : Way} {fault : Fault}
    (blocked : Blocked host thing way fault) : IsLoose host fault := by
  cases blocked with
  | rowKey | single => exact .inl rfl
  | missing => exact .inr (.inr (.inl rfl))
  | member raised => exact .inr (.inr (.inr (.member raised.1)))
  | object _ raised => exact .inr (.inr (.inr (.item raised.1)))

theorem Unconverted.loose {host : Host} {id : Nat} {c : Char} {fault : Fault}
    (unconverted : Unconverted host id c fault) : IsLoose host fault := by
  cases unconverted with
  | printed _ raised => exact .inr (.inr (.inr (.print raised.1)))
  | plain raised => exact .inr (.inr (.inr (.plain raised.1)))

theorem Unfit.loose {host : Host} {spec : List Char} {thing : Thing} {fault : Fault}
    (unfit : Unfit host spec thing fault) : IsLoose host fault := by
  cases unfit with
  | whole _ exceeds => cases exceeds <;> exact .inr (.inl rfl)
  | unlaid => exact .inl rfl
  | object raised => exact .inr (.inr (.inr (.layOut raised.1)))

theorem Escape.loose {supply : Supply} {depth : Nat} {cs : List Char} {fault : Fault}
    (escape : Escape supply depth cs fault) : IsLoose supply.host fault := by
  induction depth generalizing cs with
  | zero => exact escape.elim
  | succ depth ih =>
      obtain ⟨_, _, _, _, _, inField⟩ := escape
      cases inField with
      | way _ _ _ blocked => exact blocked.loose
      | conversion _ _ unconverted => exact unconverted.loose
      | inner _ _ escape => exact ih escape
      | layout _ _ unfit => exact unfit.loose

/-- A piece that is text, or a field that is just a name, as it stands or converted. -/
def Piece.isSimple : Piece → Bool
  | .field inserted => inserted.ways.isEmpty && inserted.spec.isEmpty
  | _ => true

theorem converted_value {host : Host} {value : Value} {conversion : Option Char} {thing : Thing}
    (given : converted host (.value value) conversion = .ok thing) :
    ∃ shown, thing = .value shown := by
  simp only [converted] at given
  split at given
  · exact ⟨value, (Except.ok.inj given).symm⟩
  · obtain ⟨s, _, rfl⟩ := Outcome.map_ok given
    exact ⟨_, rfl⟩
  · obtain ⟨s, _, rfl⟩ := Outcome.map_ok given
    exact ⟨_, rfl⟩
  · obtain ⟨s, _, rfl⟩ := Outcome.map_ok given
    exact ⟨_, rfl⟩
  · cases given

theorem not_escape_simple {cs : List Char} (simple : (piecesOf cs).all Piece.isSimple = true)
    (supply : Supply) (depth : Nat) (fault : Fault) : ¬Escape supply depth cs fault := by
  cases depth with
  | zero => exact id
  | succ depth =>
      rintro ⟨before, field, after, split, _, escape⟩
      have plain : field.ways = [] ∧ field.spec = [] := by
        have inside := List.all_eq_true.mp simple (.field field) (by simp [split])
        simpa [Piece.isSimple] using inside
      -- Without a way, the field stays with the value that its name stands for.
      have reaches {reached : Thing} (found : field.lookUp supply = .ok reached) :
          ∃ start, reached = .value start := by
        rw [Field.lookUp_eq, plain.1] at found
        obtain ⟨start, _, walked⟩ := Outcome.bind_ok found
        exact ⟨start, (Except.ok.inj walked).symm⟩
      cases escape with
      | way _ ways => simp [plain.1] at ways
      | conversion reached =>
          obtain ⟨_, same⟩ := reaches reached
          cases same
      | inner _ nested => simp [plain.2] at nested
      | layout inserted filled unfit =>
          obtain ⟨reached, found, shown⟩ := Outcome.bind_ok inserted
          obtain ⟨start, rfl⟩ := reaches found
          obtain ⟨value, rfl⟩ := converted_value shown
          simp only [Field.layout, plain.2, List.contains_nil, Bool.false_eq_true,
            if_false] at filled
          obtain rfl := Except.ok.inj filled
          exact unfit_nil unfit

end Template

/-- What the template of a rule is filled in with. -/
def Rule.supply (rule : Rule) (label : String) : Template.Supply :=
  messageSupply label (rule.kind.parameters?.getD []) rule.host

theorem Rule.supply_simple (rule : Rule) (label : String) : (rule.supply label).Simple where
  named name fault := by
    simp only [supply, messageSupply]
    split
    · exact Throws.ok
    · exact Throws.ok
  placed position := rfl

namespace Rule

/-- Where the template of a rule lets a fault out for an attribute. -/
def Escape (rule : Rule) (label : String) (fault : Fault) : Prop :=
  Template.Escape (rule.supply label) 2 rule.template.toList fault

variable {rule : Rule} {label : String} {fault : Fault}

theorem message_eq (rule : Rule) (label : String) :
    rule.message label = match Template.fill (rule.supply label) rule.template with
      | .ok text => .ok text
      | .error fault => if fault.keepsTemplate then .ok rule.template else .error fault := rfl

theorem message_error : rule.message label = .error fault ↔ rule.Escape label fault := by
  rw [Escape, ← Template.fill_throws (supply_simple rule label), message_eq]
  cases Template.fill (rule.supply label) rule.template with
  | ok text => exact iff_of_false nofun Throws.ok
  | error other =>
      simp only
      split
      · rename_i keeps
        exact iff_of_false nofun (Throws.kept keeps)
      · rename_i lets
        rw [Throws.error (Bool.not_eq_true _ ▸ lets)]
        exact ⟨fun same => (Except.error.inj same).symm, fun same => same ▸ rfl⟩

theorem message_ok :
    (∃ text, rule.message label = .ok text) ↔ ∀ fault, ¬rule.Escape label fault := by
  simp only [← message_error]
  cases rule.message label with
  | error fault => simp
  | ok text => simp

end Rule

end FieldRules
