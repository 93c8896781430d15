import FieldRules.Proofs.Json.Recognition

/-! # Long rows of digits in JSON

The digits of a whole number stand in one row. So a text without a row of too many digits is read or
it is malformed.
-/

namespace FieldRules.Json

open FieldRules.Number FieldRules.Text

/-- A text has a number of digits in one row. -/
def HasRow (cs : List Char) (count : Nat) : Prop :=
  ∃ row, row <:+: cs ∧ (∀ c ∈ row, isAsciiDigit c = true) ∧ row.length = count

theorem Whole.digits {row : List Char} (whole : Whole row) : Digits row := by
  cases whole with
  | zero => exact ⟨nofun, fun c member => by rw [List.mem_singleton.mp member]; rfl⟩
  | row digits => exact digits

theorem RunsLong.row {count : Nat} {cs : List Char} (long : RunsLong count cs) :
    digitLimit < count ∧ HasRow cs count := by
  obtain ⟨front, back, rfl, -, minus, whole, counted, beyond, -⟩ := long
  rename_i sign row rest
  refine ⟨beyond, row, ⟨front ++ sign, rest, ?_⟩, whole.digits.2, counted⟩
  simp only [List.append_assoc]

/-- A text of which too many digits are reported has them in one row. -/
theorem read_tooManyDigits {text : String} {count : Nat}
    (long : read text = .error (.tooManyDigits count)) :
    digitLimit < count ∧ HasRow text.toList count :=
  (read_tooManyDigits_iff.mp long).row

theorem BeginsLong.ofRow {row rest : List Char} (digits : ∀ c ∈ row, isAsciiDigit c = true)
    (first : row.head? ≠ some '0') (beyond : digitLimit < row.length) (stops : Stops rest) :
    BeginsLong row.length (row ++ rest) := by
  have nonempty : row ≠ [] := List.ne_nil_of_length_pos (Nat.zero_lt_of_lt beyond)
  exact .mk (.inl rfl) (.row ⟨nonempty, digits⟩ first) rfl beyond stops

/-- A text that begins with a number that is too long is not read, whatever follows. -/
theorem BeginsLong.read {count : Nat} {cs : List Char} (begins : BeginsLong count cs) :
    read (String.ofList cs) = .error (.tooManyDigits count) := by
  apply RunsLong.read
  rw [String.toList_ofList]
  exact ⟨[], cs, rfl, .element .nil .here, begins⟩

/-- Too many digits are reported of a text that is nothing else. -/
theorem read_long {row : List Char} (digits : ∀ c ∈ row, isAsciiDigit c = true)
    (first : row.head? ≠ some '0') (beyond : digitLimit < row.length) :
    read (String.ofList row) = .error (.tooManyDigits row.length) := by
  have begins := BeginsLong.ofRow digits first beyond .nil
  rw [List.append_nil] at begins
  exact begins.read

/-- Enough ones are a number that is too long. -/
theorem BeginsLong.ones {count : Nat} (beyond : digitLimit < count) {rest : List Char}
    (stops : Stops rest) : BeginsLong count (List.replicate count '1' ++ rest) := by
  have digits : ∀ c ∈ List.replicate count '1', isAsciiDigit c = true := by
    intro c member
    rw [List.eq_of_mem_replicate member]
    rfl
  have first : (List.replicate count '1').head? ≠ some '0' := by
    cases count with
    | zero => simp
    | succ count => simp [List.replicate_succ]
  have counted : (List.replicate count '1').length = count := List.length_replicate
  have begins := BeginsLong.ofRow digits first (counted.symm ▸ beyond) stops
  rwa [counted] at begins

theorem read_ones {count : Nat} (beyond : digitLimit < count) :
    read (String.ofList (List.replicate count '1')) = .error (.tooManyDigits count) := by
  have begins := BeginsLong.ones beyond .nil
  rw [List.append_nil] at begins
  exact begins.read

end FieldRules.Json
