import FieldRules.Pattern.Matcher
import FieldRules.Proofs.Text.Case

/-! # Characters in either case

A set or a character of ASCII, matched in either case, takes no character beyond ASCII but the few
that have a letter of ASCII as another case.
-/

namespace FieldRules.Pattern

open FieldRules.Text

/-- The options under which letters match in either case. -/
def anyCase : Flags := { ignoreCase := true }

/-- The same, for classes that know ASCII only. -/
def asciiCase : Flags := { ignoreCase := true, ascii := true }

theorem lowerCode_toNat (c : Char) : lowerCode false c.toNat = (lowerChar c).toNat := by
  have valid : isTextCode c.toNat = true := by
    have := c.valid
    simp only [isTextCode, Bool.or_eq_true, Bool.and_eq_true, decide_eq_true_eq]
    exact this
  rw [lowerCode, if_neg Bool.false_ne_true, if_pos valid, Char.ofNat_toNat]

/-! ## What a character stands for -/

theorem twinTable_wide : ∀ row ∈ twinTable, 128 ≤ row.1 → row.1 ≠ 0x131 → row.1 ≠ 0x17F →
    ∀ twin ∈ row.2, 128 ≤ twin := by decide

theorem twinTable_stray : ∀ row ∈ twinTable, row.1 < 128 →
    ∀ twin ∈ row.2, Char.ofNat twin ∈ strayLetters := by decide

theorem mem_twins {code twin : Nat} (member : twin ∈ twins code) :
    ∃ row ∈ twinTable, row.1 = code ∧ twin ∈ row.2 := by
  rw [twins] at member
  cases found : twinTable.find? (·.1 == code) with
  | none => simp [found] at member
  | some row =>
      rw [found] at member
      exact ⟨row, List.mem_of_find?_eq_some found, by simpa using List.find?_some found, member⟩

/-- The other capitals of a letter are not of ASCII. -/
theorem mem_capitalsOf {small code : Nat} (low : code < 128) :
    code ∈ capitalsOf false small ↔ code ∈ capitalsOf true small := by
  simp only [capitalsOf, Bool.false_eq_true, if_false, if_true, List.mem_append, List.mem_filterMap]
  constructor
  · rintro ((basic | ⟨run, inside, covered⟩) | dotted)
    · exact basic
    · have wide := (runs_known run inside).1.1
      split at covered
      · rename_i covers
        obtain rfl := Option.some.inj covered
        simp only [CaseRun.covers, Bool.and_eq_true, decide_eq_true_eq] at covers
        omega
      · cases covered
    · split at dotted
      · rw [List.mem_singleton] at dotted
        omega
      · cases dotted
  · exact fun basic => .inl (.inl basic)

theorem capitalsOf_wide {small : Nat} (wide : 128 ≤ small) :
    ∀ code ∈ capitalsOf false small, 128 ≤ code := by
  intro code member
  refine Nat.le_of_not_lt fun low => ?_
  rw [mem_capitalsOf low] at member
  simp only [capitalsOf, if_true] at member
  split at member
  · rename_i letter
    simp only [Bool.and_eq_true, decide_eq_true_eq] at letter
    omega
  · cases member

theorem variants_wide {small : Nat} (wide : 128 ≤ small) (stray : Char.ofNat small ∉ strayLetters) :
    ∀ code ∈ variants false small, 128 ≤ code := by
  have others : ∀ twin ∈ twins small, 128 ≤ twin := by
    intro twin member
    obtain ⟨row, inside, rfl, twinned⟩ := mem_twins member
    refine twinTable_wide row inside wide ?_ ?_ twin twinned
    · rintro same
      exact stray (by rw [same]; decide)
    · rintro same
      exact stray (by rw [same]; decide)
  have smalls : ∀ code ∈ small :: twins small, 128 ≤ code := List.forall_mem_cons.mpr ⟨wide, others⟩
  intro code member
  rcases List.mem_append.mp member with here | capital
  · exact smalls code here
  · obtain ⟨letter, inside, capital⟩ := List.mem_flatMap.mp capital
    exact capitalsOf_wide (smalls letter inside) code capital

/-! ## Sets and characters of ASCII -/

/-- Whether an item of a set names characters of ASCII only. -/
def SetItem.isAscii : SetItem → Bool
  | .named .. => false
  | .code expected => expected < 128
  | .range _ last => last < 128

theorem lowerCode_ascii : ∀ code < 128, lowerCode false code < 128 := by decide

theorem not_mem_twins {small code : Nat} (ascii : small < 128)
    (stray : Char.ofNat code ∉ strayLetters) : code ∉ twins small := by
  intro member
  obtain ⟨row, inside, rfl, twinned⟩ := mem_twins member
  exact stray (twinTable_stray row inside ascii code twinned)

theorem SetItem.holds_wide {item : SetItem} (ascii : item.isAscii = true) {code : Nat}
    (wide : 128 ≤ code) (stray : Char.ofNat code ∉ strayLetters) :
    item.holds anyCase code = false := by
  cases item with
  | named => nomatch ascii
  | code expected =>
      have small := lowerCode_ascii expected (by simpa [isAscii] using ascii)
      have other : code ≠ lowerCode false expected := by omega
      have untwinned := not_mem_twins small stray
      have near : ¬0xFFFF < lowerCode false expected := by omega
      simp [holds, anyCase, near, other, untwinned]
  | range first last =>
      have low : last < 128 := by simpa [isAscii] using ascii
      have near : ¬0xFFFF < last := by omega
      have outside {other : Nat} (wide : 128 ≤ other) :
          (decide (first ≤ other) && decide (other ≤ last)) = false := by
        rw [Bool.and_eq_false_iff, decide_eq_false_iff_not, decide_eq_false_iff_not]
        omega
      simp only [holds, anyCase, near, outside wide, decide_false, Bool.and_false,
        Bool.false_and, Bool.or_false, Bool.false_or, Bool.true_and]
      rw [List.any_eq_false]
      intro variant member
      simp [outside (variants_wide wide stray variant member)]

theorem inSet_foreign {items : List SetItem} (ascii : ∀ item ∈ items, item.isAscii = true)
    {c : Char} (foreign : IsForeign c) : inSet anyCase false items c = false := by
  have none : items.any (·.holds anyCase (lowerChar c).toNat) = false := by
    rw [List.any_eq_false]
    intro item member
    rw [SetItem.holds_wide (ascii item member) foreign.small]
    · exact Bool.false_ne_true
    · rw [Char.ofNat_toNat]
      exact foreign.smallStray
  rw [← lowerCode_toNat] at none
  simpa [inSet, anyCase] using none

theorem isLiteral_foreign {code : Nat} (ascii : code < 128) {c : Char} (foreign : IsForeign c) :
    isLiteral anyCase code false c = false := by
  have small := lowerCode_ascii code ascii
  have wide := foreign.wide
  have smallWide := foreign.small
  have other : (lowerChar c).toNat ≠ lowerCode false code := by omega
  have untwinned : (lowerChar c).toNat ∉ twins (lowerCode false code) := by
    refine not_mem_twins small ?_
    rw [Char.ofNat_toNat]
    exact foreign.smallStray
  have apart : c.toNat ≠ code := by omega
  simp [isLiteral, anyCase, lowerCode_toNat, other, untwinned, apart]

theorem ascii_not_stray : ∀ code < 128, Char.ofNat code ∉ strayLetters := by decide

theorem mem_variants {small code : Nat} (here : small < 128) (low : code < 128) :
    code ∈ variants false small ↔ code ∈ variants true small := by
  have stray {twin : Nat} (member : twin ∈ twins small) : 128 ≤ twin := by
    refine Nat.le_of_not_lt fun low => ?_
    exact not_mem_twins here (ascii_not_stray twin low) member
  simp only [variants, Bool.false_eq_true, if_false, if_true, List.mem_append, List.mem_cons,
    List.flatMap_cons, List.flatMap_nil, List.append_nil, mem_capitalsOf low, List.not_mem_nil,
    or_false, List.mem_flatMap]
  constructor
  · rintro ((same | twin) | (capital | ⟨twin, member, capital⟩))
    · exact .inl same
    · exact absurd (stray twin) (Nat.not_le.mpr low)
    · exact .inr capital
    · exact absurd (capitalsOf_wide (stray member) code ((mem_capitalsOf low).mpr capital))
        (Nat.not_le.mpr low)
  · rintro (same | capital)
    · exact .inl (.inl same)
    · exact .inr (.inl capital)

theorem lowerCode_same : ∀ code < 128, lowerCode false code = lowerCode true code := by
  decide

theorem SetItem.holds_ascii {item : SetItem} (ascii : item.isAscii = true) {code : Nat}
    (here : code < 128) : item.holds anyCase code = item.holds asciiCase code := by
  cases item with
  | named => nomatch ascii
  | code expected =>
      have low : expected < 128 := by simpa [isAscii] using ascii
      have small := lowerCode_ascii expected low
      have untwinned := not_mem_twins small (ascii_not_stray code here)
      rw [lowerCode_same expected low] at untwinned
      simp [holds, anyCase, asciiCase, lowerCode_same expected low, untwinned]
  | range first last =>
      have low : last < 128 := by simpa [isAscii] using ascii
      have near : ¬0xFFFF < last := by omega
      have covered : (variants false code).any (fun v => decide (first ≤ v) && decide (v ≤ last)) =
          (variants true code).any (fun v => decide (first ≤ v) && decide (v ≤ last)) := by
        rw [Bool.eq_iff_iff, List.any_eq_true, List.any_eq_true]
        refine exists_congr fun v => and_congr_left fun inside => ?_
        simp only [Bool.and_eq_true, decide_eq_true_eq] at inside
        exact mem_variants here (by omega)
      simp [holds, anyCase, asciiCase, near, covered]

/-- On ASCII a set of ASCII may be asked as if there were no other characters. -/
theorem inSet_ascii {items : List SetItem} (ascii : ∀ item ∈ items, item.isAscii = true)
    {c : Char} (here : c.toNat < 128) :
    inSet anyCase false items c = inSet asciiCase false items c := by
  have each : ∀ item ∈ items, item.holds anyCase (lowerCode false c.toNat) =
      item.holds asciiCase (lowerCode true c.toNat) := by
    intro item member
    rw [← lowerCode_same c.toNat here]
    exact SetItem.holds_ascii (ascii item member) (lowerCode_ascii c.toNat here)
  have same : items.any (·.holds anyCase (lowerCode false c.toNat)) =
      items.any (·.holds asciiCase (lowerCode true c.toNat)) := by
    rw [Bool.eq_iff_iff, List.any_eq_true, List.any_eq_true]
    refine exists_congr fun item => and_congr_right fun member => ?_
    rw [each item member]
  simpa [inSet, anyCase, asciiCase] using same

/-- A set of ASCII is known by its members in ASCII and among the few strays. -/
theorem inSet_eq {items : List SetItem} {test : Char → Bool}
    (ascii : ∀ item ∈ items, item.isAscii = true)
    (codes : ∀ code < 128, inSet asciiCase false items (Char.ofNat code) = test (Char.ofNat code))
    (strays : ∀ c ∈ strayLetters, inSet anyCase false items c = test c)
    (none : ∀ {c}, IsForeign c → test c = false) :
    ∀ c, inSet anyCase false items c = test c := by
  refine forall_char (fun code low => ?_) strays fun c foreign => ?_
  · have here : (Char.ofNat code).toNat < 128 := by
      rwa [toNat_ofNat (.inl (by omega))]
    rw [inSet_ascii ascii here, codes code low]
  · rw [inSet_foreign ascii foreign, none foreign]

/-- A class is asked of the small letter. -/
theorem inSet_named (charClass : CharClass) (negated : Bool) (c : Char) :
    inSet anyCase false [.named charClass negated] c =
      (charClass.holds false (lowerChar c).toNat != negated) := by
  simp [inSet, anyCase, SetItem.holds, lowerCode_toNat]

end FieldRules.Pattern
