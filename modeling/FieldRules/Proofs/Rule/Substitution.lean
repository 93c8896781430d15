import FieldRules.Proofs.Rule.Messages
import FieldRules.Proofs.Template.Grammar
import FieldRules.Proofs.Text.Case
import Mathlib.Data.List.TakeWhile

/-! # What messages say

A plain template is literal text and names between braces. A message puts the texts in the place of
the names, and that is all: what is put in is not read again, and a name that stands for nothing
stays as it is written.
-/

namespace FieldRules

open Text Template

/-- A character of a name in a plain template. -/
def isNameChar (c : Char) : Bool := isAsciiLetter c || isAsciiDigit c || c == '_'

/-- Whether a text is a name of ASCII characters. -/
def isIdentifier (name : String) : Bool :=
  match name.toList with
  | [] => false
  | c :: rest => !isAsciiDigit c && (c :: rest).all isNameChar

/-- A part of a plain template. -/
inductive PlainPart where
  | literal (text : String)
  | field (name : String)

namespace PlainPart

def part : PlainPart → Template.Part
  | literal text => .literal text.toList
  | field name => .placeholder { name := name.toList }

/-- Parts as a template, with doubled braces in the literal text. -/
def templateOf (parts : List PlainPart) : String := String.ofList (Part.textOf (parts.map part))

/-- What a part says to a reader, in a message for an attribute. -/
def shown (label : String) (parameters : List (String × Value)) : PlainPart → String
  | literal text => text
  | field name =>
    if name = "attribute" then label
    else ((parameters.lookup name).getD (.str (asField name))).text?.getD ""

/-- Whether what a part names can be given as text. -/
def HasText (parameters : List (String × Value)) : PlainPart → Prop
  | literal _ => True
  | field name =>
    name ≠ "attribute" → ∀ value, parameters.lookup name = some value → value.text?.isSome = true

theorem hasText_of_all {parameters : List (String × Value)}
    (texts : ∀ entry ∈ parameters, entry.2.text?.isSome = true) (part : PlainPart) :
    part.HasText parameters := by
  cases part with
  | literal text => trivial
  | field name =>
      intro _ value found
      obtain ⟨before, after, split, _⟩ := List.lookup_eq_some_iff.mp found
      exact texts (name, value) (by simp [split])

end PlainPart

variable {name : String}

/-- The characters of names have no meaning in a template, and are digits in ASCII only. -/
theorem isNameChar_plain {c : Char} (inName : isNameChar c = true) :
    c ∉ ['\x7b', '\x7d', ':', '!', '['] ∧ beginsWay c = false ∧ isDigit c = isAsciiDigit c := by
  have ascii : c.toNat < 128 := by
    by_contra wide
    have none := not_ascii_of_wide (Nat.not_lt.mp wide)
    have other : c ≠ '_' := by
      rintro rfl
      exact wide (by decide)
    simp [isNameChar, none, other] at inName
  exact forall_ascii (p := fun c => isNameChar c = true → c ∉ ['\x7b', '\x7d', ':', '!', '['] ∧
    beginsWay c = false ∧ isDigit c = isAsciiDigit c) (by decide) ascii inName

theorem identifier_split (identifier : isIdentifier name = true) :
    ∃ c rest, name.toList = c :: rest ∧ isAsciiDigit c = false ∧
      ∀ d ∈ c :: rest, isNameChar d = true := by
  unfold isIdentifier at identifier
  split at identifier
  · nomatch identifier
  · rename_i c rest same
    rw [Bool.and_eq_true, Bool.not_eq_true', List.all_eq_true] at identifier
    exact ⟨c, rest, same, identifier⟩

theorem nameText_plain {name : List Char} (plain : ∀ c ∈ name, isNameChar c = true) :
    NameText name := by
  induction name with
  | nil => exact .nil
  | cons c rest ih =>
      obtain ⟨first, others⟩ := List.forall_mem_cons.mp plain
      exact .plain (isNameChar_plain first).1 (ih others)

theorem start_named {field : Field} (root : field.root = name.toList) (some : name.toList ≠ [])
    (unnumbered : number? name.toList = .ok none) (supply : Supply) :
    field.start supply = supply.named name := by
  obtain ⟨c, rest, same⟩ := List.exists_cons_of_ne_nil some
  rw [same] at root unnumbered
  have whole : String.ofList (c :: rest) = name := by rw [← same, String.ofList_toList]
  simp only [Field.start, root, unnumbered, lift, Bind.bind, Except.bind, whole]

/-- A field that is a name comes to the text of what it names. -/
theorem text_identifier (identifier : isIdentifier name = true) (supply : Supply)
    (inner : List Char → Outcome (List Char)) :
    Field.text { name := name.toList } supply inner =
      supply.named name >>= fun value => value.plain.map String.toList := by
  obtain ⟨c, rest, same, letter, chars⟩ := identifier_split identifier
  have wayless : ∀ d ∈ name.toList, beginsWay d = false := by
    rw [same]
    exact fun d member => (isNameChar_plain (chars d member)).2.1
  have root : Field.root { name := name.toList } = name.toList :=
    List.takeWhile_eq_self_iff.mpr fun d member => by simp [wayless d member]
  have ways : Field.ways { name := name.toList } = [] := by
    have none : name.toList.dropWhile (fun d => !beginsWay d) = [] :=
      List.dropWhile_eq_nil_iff.mpr fun d member => by simp [wayless d member]
    rw [Field.ways, none]
    rfl
  have unnumbered : number? name.toList = .ok none := by
    have digitless : isDigit c = false :=
      (isNameChar_plain (chars c List.mem_cons_self)).2.2.trans letter
    simp [number?, same, digitless]
  have start := start_named root (by simp [same]) unnumbered supply
  rw [Field.text, Field.thing, Field.lookUp_eq, ways, start]
  cases supply.named name with
  | error fault => rfl
  | ok value =>
      have unlaid : layOut [] value = value.plain.map String.toList := by
        simp only [layOut, List.isEmpty_nil, if_true]
        cases value.plain <;> rfl
      exact unlaid

namespace PlainPart

/-- What a message for an attribute has to be, when this is what the names in its template may
    stand for. -/
structure Substituted (parts : List PlainPart) (label : String)
    (parameters : List (String × Value)) (message : Outcome String) : Prop where
  shown : (∀ part ∈ parts, part.HasText parameters) →
    message = .ok (String.join (parts.map (shown label parameters)))
  unshown : (∃ part ∈ parts, ¬part.HasText parameters) → message = .ok (templateOf parts)

variable (label : String) (parameters : List (String × Value)) (host : Template.Host)

theorem text_part {part : PlainPart} (named : ∀ name, part = .field name → isIdentifier name = true)
    (inner : List Char → Outcome (List Char)) :
    (part.HasText parameters → part.part.text (messageSupply label parameters host) inner =
        .ok (part.shown label parameters).toList) ∧
      (¬part.HasText parameters → part.part.text (messageSupply label parameters host) inner =
        .error .unprintable) := by
  cases part with
  | literal text => exact ⟨fun _ => rfl, fun none => absurd trivial none⟩
  | field name =>
      have found : (PlainPart.field name).part.text (messageSupply label parameters host) inner = _ :=
        text_identifier (named name rfl) (messageSupply label parameters host) inner
      rw [found]
      by_cases own : name = "attribute"
      · subst own
        exact ⟨fun _ => rfl, fun none => absurd (fun other => absurd rfl other) none⟩
      have value : (messageSupply label parameters host).named name =
          .ok ((parameters.lookup name).getD (.str (asField name))) := if_neg own
      simp only [value, Bind.bind, Except.bind, HasText, shown, own, if_false, Value.plain]
      cases known : parameters.lookup name with
      | none => simp [Value.text?, Except.map]
      | some given => cases shown : given.text? <;> simp [shown, own, Except.map]

theorem mapM_text {parts : List PlainPart}
    (named : ∀ name, .field name ∈ parts → isIdentifier name = true)
    (inner : List Char → Outcome (List Char)) :
    ((∀ part ∈ parts, part.HasText parameters) →
        (parts.map part).mapM (Part.text (messageSupply label parameters host) inner) =
          .ok (parts.map fun part => (part.shown label parameters).toList)) ∧
      ((∃ part ∈ parts, ¬part.HasText parameters) →
        (parts.map part).mapM (Part.text (messageSupply label parameters host) inner) =
          .error .unprintable) := by
  induction parts with
  | nil => exact ⟨fun _ => rfl, fun ⟨_, member, _⟩ => nomatch member⟩
  | cons first rest ih =>
      have here := text_part label parameters host
        (fun name same => named name (same ▸ List.mem_cons_self)) inner
      have behind := ih fun name member => named name (List.mem_cons_of_mem first member)
      rw [List.map_cons, List.mapM_cons]
      constructor
      · intro texts
        obtain ⟨own, others⟩ := List.forall_mem_cons.mp texts
        rw [here.1 own, behind.1 others]
        rfl
      · intro textless
        by_cases own : first.HasText parameters
        · have others : ∃ part ∈ rest, ¬part.HasText parameters := by
            obtain ⟨part, member, none⟩ := textless
            rcases List.mem_cons.mp member with rfl | later
            · exact absurd own none
            · exact ⟨part, later, none⟩
          rw [here.1 own, behind.2 others]
          rfl
        · rw [here.2 own]
          rfl

theorem fill_templateOf {parts : List PlainPart}
    (named : ∀ name, .field name ∈ parts → isIdentifier name = true) :
    ((∀ part ∈ parts, part.HasText parameters) →
        fill (messageSupply label parameters host) (templateOf parts) =
          .ok (String.join (parts.map (shown label parameters)))) ∧
      ((∃ part ∈ parts, ¬part.HasText parameters) →
        fill (messageSupply label parameters host) (templateOf parts) = .error .unprintable) := by
  have proper : ∀ written ∈ parts.map PlainPart.part, written.Proper := by
    intro written member
    obtain ⟨plain, inside, rfl⟩ := List.mem_map.mp member
    cases plain with
    | literal text => trivial
    | field name =>
        obtain ⟨_, _, same, _, chars⟩ := identifier_split (named name inside)
        exact ⟨nameText_plain (same ▸ chars), nofun⟩
  have filled := fill_textOf (messageSupply label parameters host)
    (fillWith (messageSupply label parameters host) 1) proper
  have texts := mapM_text label parameters host named
    (fillWith (messageSupply label parameters host) 1)
  rw [fill, templateOf, String.toList_ofList, fillWith, filled]
  constructor
  · intro has
    have joined :
        String.ofList (parts.map fun part => (part.shown label parameters).toList).flatten =
          String.join (parts.map (shown label parameters)) := by
      refine String.toList_inj.mp ?_
      simp [List.flatMap_def, Function.comp_def]
    rw [texts.1 has]
    exact congrArg Except.ok joined
  · intro textless
    rw [texts.2 textless]
    rfl

end PlainPart

open PlainPart (Substituted templateOf)

/-- The message of a rule with a plain template is the text of the template with what stands for
    the names in their places: the label, the bounds of the rule if it has any, and otherwise what
    the caller supplies. If that has no text, the message is the template. Callers can supply
    anything but what the function itself is called with. -/
theorem Rule.message_plain (rule : Rule) {parts : List PlainPart}
    (named : ∀ name, .field name ∈ parts → isIdentifier name = true)
    (template : rule.template = templateOf parts) (label : String)
    (supplied : List (String × Value)) :
    (rule.kind.parameters? = none →
        Substituted parts label supplied (rule.message label supplied)) ∧
      (∀ bound, rule.kind = .min bound →
        Substituted parts label [("min", .ofNumber bound)] (rule.message label supplied)) ∧
      (∀ bound, rule.kind = .max bound →
        Substituted parts label [("max", .ofNumber bound)] (rule.message label supplied)) ∧
      (∀ least most, rule.kind = .length least most →
        Substituted parts label [("min", .int least), ("max", .int most)]
          (rule.message label supplied)) ∧
      ((∀ entry ∈ supplied, entry.1 ≠ "self" ∧ entry.1 ≠ "attribute") →
        rule.messageWith label supplied = rule.message label supplied) := by
  have message (parameters : List (String × Value))
      (used : rule.kind.parameters?.getD supplied = parameters) :
      Substituted parts label parameters (rule.message label supplied) := by
    have filled := PlainPart.fill_templateOf label parameters rule.host named
    constructor
    · intro texts
      simp only [Rule.message, used, template, filled.1 texts]
    · intro textless
      simp only [Rule.message, used, template, filled.2 textless]
      rfl
  refine ⟨fun none => message _ (by rw [none]; rfl),
    fun bound kind => message _ (by rw [kind]; rfl),
    fun bound kind => message _ (by rw [kind]; rfl),
    fun least most kind => message _ (by rw [kind]; rfl), fun free => ?_⟩
  have unrepeated :
      (supplied.find? fun entry => entry.1 = "self" || entry.1 = "attribute") = none := by
    rw [List.find?_eq_none]
    intro entry member
    simpa using free entry member
  rw [Rule.messageWith, unrepeated]

/-- Braces next to fields, an unknown name, and texts in the place of names that could be fields
    themselves. -/
theorem Rule.message_plain_sample :
    ({ ofKind .required with
        template := "\x7b\x7b\x7battribute\x7d\x7d\x7d \x7bhint\x7d\x7bmin\x7d" } : Rule).message
        "\x7bmin\x7d" [("min", .str "\x7b")] = .ok "\x7b\x7bmin\x7d\x7d \x7bhint\x7d\x7b" := by
  let parts : List PlainPart :=
    [.literal "\x7b", .field "attribute", .literal "\x7d ", .field "hint", .field "min"]
  have named : ∀ name, .field name ∈ parts → isIdentifier name = true := by
    intro name member
    simp only [parts, List.mem_cons, reduceCtorEq, PlainPart.field.injEq, List.not_mem_nil,
      false_or, or_false] at member
    rcases member with rfl | rfl | rfl <;> decide
  have plain := Rule.message_plain { ofKind .required with
    template := "\x7b\x7b\x7battribute\x7d\x7d\x7d \x7bhint\x7d\x7bmin\x7d" } named (by decide)
    "\x7bmin\x7d" [("min", .str "\x7b")]
  have texts (part : PlainPart) : part.HasText [("min", .str "\x7b")] :=
    part.hasText_of_all (List.forall_mem_singleton.mpr rfl)
  have joined : String.join (parts.map (PlainPart.shown "\x7bmin\x7d" [("min", .str "\x7b")])) =
      "\x7b\x7bmin\x7d\x7d \x7bhint\x7d\x7b" := by decide
  exact ((plain.1 rfl).shown fun part _ => texts part).trans (congrArg Except.ok joined)

end FieldRules
