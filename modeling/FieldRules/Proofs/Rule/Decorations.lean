import FieldRules.Proofs.Rule.Substitution

/-! # Decorated fields in messages

A name that stands for nothing is filled in with its own field, which is a text like any other. So
what stands behind the name, a part, a conversion or a layout, is applied to that text and does not
come into the message itself: it is kept only where the whole template is left as it is written, or
where a member that the host has for the text happens to spell it.
-/

namespace FieldRules

open Text

namespace Template

/-! ## The decoration of a field -/

/-- The characters behind a root, each of which begins a part of the decoration. -/
def decorationMarks : List Char := ['.', '[', '!', ':']

/-- A text in which nothing could begin a decoration. -/
def Unmarked (cs : List Char) : Prop := ∀ mark ∈ decorationMarks, mark ∉ cs

instance (cs : List Char) : Decidable (Unmarked cs) :=
  inferInstanceAs (Decidable (∀ mark ∈ decorationMarks, mark ∉ cs))

theorem Unmarked.subset {cs ds : List Char} (unmarked : Unmarked cs) (inside : ds ⊆ cs) :
    Unmarked ds := fun mark listed member => unmarked mark listed (inside member)

theorem Unmarked.append {cs ds : List Char} (first : Unmarked cs) (second : Unmarked ds) :
    Unmarked (cs ++ ds) := fun mark listed member =>
  (List.mem_append.mp member).elim (first mark listed) (second mark listed)

namespace Placeholder

variable {p : Placeholder}

/-- What a field asks for, without the ways from there. -/
def root (p : Placeholder) : List Char := p.name.takeWhile fun c => !beginsWay c

/-- What stands behind the root of a field. -/
def tail (p : Placeholder) : List Char := p.name.dropWhile (fun c => !beginsWay c) ++ p.decoration

/-- A field with a way to a part, a conversion or a layout. -/
def IsDecorated (p : Placeholder) : Prop :=
  p.field.ways ≠ [] ∨ p.conversion.isSome = true ∨ p.layout.isSome = true

theorem IsDecorated.tail (decorated : p.IsDecorated) :
    ∃ mark rest, p.tail = mark :: rest ∧ mark ∈ decorationMarks := by
  cases behind : p.name.dropWhile (fun c => !beginsWay c) with
  | cons c rest =>
      refine ⟨c, rest ++ p.decoration, by rw [Placeholder.tail, behind, List.cons_append], ?_⟩
      have begins : beginsWay c = true := by
        simpa [behind] using List.head?_dropWhile_not (fun c => !beginsWay c) p.name
      have either : c = '.' ∨ c = '[' := by simpa [beginsWay] using begins
      rcases either with rfl | rfl <;> decide
  | nil =>
      obtain ⟨name, conversion, layout⟩ := p
      rw [Placeholder.tail, behind, List.nil_append]
      cases conversion with
      | some c => exact ⟨'!', _, rfl, by decide⟩
      | none =>
          cases layout with
          | some spec => exact ⟨':', _, rfl, by decide⟩
          | none =>
              have wayless : Field.ways ⟨name, none, []⟩ = [] := congrArg waysOf behind
              simp [IsDecorated, Placeholder.field, wayless] at decorated

theorem unmarked_root {name : List Char} (text : NameText name) :
    Unmarked (name.takeWhile fun c => !beginsWay c) := by
  induction text with
  | nil => decide
  | bracketed =>
      rw [List.takeWhile_cons_of_neg (by decide)]
      decide
  | @plain c rest inside _ ih =>
      cases begins : beginsWay c with
      | true =>
          rw [List.takeWhile_cons_of_neg (by simp [begins])]
          decide
      | false =>
          rw [List.takeWhile_cons_of_pos (by simp [begins])]
          refine Unmarked.append (show Unmarked [c] from fun mark listed member => ?_) ih
          obtain rfl := List.mem_singleton.mp member
          simp only [decorationMarks, List.mem_cons, List.not_mem_nil, or_false] at listed
          rcases listed with rfl | rfl | rfl | rfl
          · nomatch begins
          · nomatch begins
          · simp at inside
          · simp at inside

theorem Proper.root (proper : p.Proper) : Unmarked p.root := unmarked_root proper.name

end Placeholder

/-! ## What a stand-in comes to -/

theorem Unmarked.flatMap {cs : List Char} (unmarked : Unmarked cs) {write : Char → List Char}
    (written : ∀ c, c ∉ decorationMarks → Unmarked (write c)) : Unmarked (cs.flatMap write) := by
  intro mark listed member
  obtain ⟨c, inside, here⟩ := List.mem_flatMap.mp member
  exact written c (fun marked => unmarked c marked inside) mark listed here

end Template

open Template

section Unknown

variable {p : Placeholder} {label : String} {parameters : List (String × Value)} {host : Host}

end Unknown

end FieldRules
