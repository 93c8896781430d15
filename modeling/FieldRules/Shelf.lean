/-! # Things with identity

A shelf gives each identity its thing, so that what changes at one place shows at all the others
that hold the identity.  The identities from `next` on are not in use yet.
-/

namespace FieldRules

/-- Things with identity. -/
structure Shelf (α : Type) where
  next : Nat
  item : Nat → α

namespace Shelf

variable {α : Type}

/-- A shelf without things; unused identities have a default thing. -/
def empty [Inhabited α] : Shelf α := ⟨0, fun _ => default⟩

instance [Inhabited α] : Inhabited (Shelf α) := ⟨empty⟩

/-- Sets the thing of an identity. -/
def set (shelf : Shelf α) (id : Nat) (thing : α) : Shelf α :=
  { shelf with item := fun other => if other = id then thing else shelf.item other }

/-- Changes the thing of an identity. -/
def modify (shelf : Shelf α) (id : Nat) (change : α → α) : Shelf α :=
  shelf.set id (change (shelf.item id))

/-- Gives a new thing an identity. -/
def add (shelf : Shelf α) (thing : α) : Nat × Shelf α :=
  (shelf.next, { shelf.set shelf.next thing with next := shelf.next + 1 })

@[simp] theorem item_set (shelf : Shelf α) (id other : Nat) (thing : α) :
    (shelf.set id thing).item other = if other = id then thing else shelf.item other := rfl

@[simp] theorem next_set (shelf : Shelf α) (id : Nat) (thing : α) :
    (shelf.set id thing).next = shelf.next := rfl

@[simp] theorem item_add (shelf : Shelf α) (other : Nat) (thing : α) :
    (shelf.add thing).2.item other = if other = shelf.next then thing else shelf.item other := rfl

@[simp] theorem next_add (shelf : Shelf α) (thing : α) :
    (shelf.add thing).2.next = shelf.next + 1 := rfl

end Shelf

end FieldRules
