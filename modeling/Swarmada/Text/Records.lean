import Mathlib.Data.List.Induction

namespace Swarmada.Text

def record (opens closes : Char) (entry : String × Nat) : List Char :=
  opens :: entry.1.toList ++ closes :: Nat.toDigits 10 entry.2

/-- Two lists that agree up to the last `a` of each agree on both sides of it. -/
theorem append_cons_inj_last (fresh : a ∉ after)
    (fresh' : a ∉ after') (same : before ++ a :: after = before' ++ a :: after') : before = before' ∧ after = after' := by
  rcases List.append_eq_append_iff.mp same with ⟨between, first, second⟩ | ⟨between, first, second⟩
  · cases between with
    | nil => exact ⟨by simpa using first.symm, by simpa using second⟩
    | cons _ tail =>
      obtain ⟨-, rest⟩ := List.cons.inj second
      exact absurd (rest ▸ List.mem_append_right tail List.mem_cons_self) fresh
  · cases between with
    | nil => exact ⟨by simpa using first, by simpa using second.symm⟩
    | cons _ tail =>
      obtain ⟨-, rest⟩ := List.cons.inj second
      exact absurd (rest ▸ List.mem_append_right tail List.mem_cons_self) fresh'

/-- Two lists that agree up to the first `a` of each agree on both sides of it. -/
theorem append_cons_inj_first (fresh : a ∉ before)
    (fresh' : a ∉ before') (same : before ++ a :: after = before' ++ a :: after') : before = before' ∧ after = after' := by
  have reversed : after.reverse ++ a :: before.reverse = after'.reverse ++ a :: before'.reverse := by
    simpa using congrArg List.reverse same
  obtain ⟨afters, befores⟩ := append_cons_inj_last (by simpa using fresh) (by simpa using fresh') reversed
  exact ⟨List.reverse_inj.1 befores, List.reverse_inj.1 afters⟩

theorem toDigits_inj (same : Nat.toDigits 10 m = Nat.toDigits 10 n) : m = n := by
  have read := congrArg (fun digits => Nat.ofDigitChars 10 digits 0) same
  simpa using read

theorem toDigits_last (last : (Nat.toDigits 10 n).getLast? = some c) : c.isDigit = true :=
  Nat.isDigit_of_mem_toDigits (by decide) (by decide) (List.mem_of_getLast? last)

variable {opens closes : Char}

theorem notMem_toDigits (mark : closes.isDigit = false) : closes ∉ Nat.toDigits 10 n := by
  intro member
  have digit := Nat.isDigit_of_mem_toDigits (by decide) (by decide) member
  simp [mark] at digit

/-- A text that ends in a record ends in a digit. -/
theorem getLast_record {before : List Char} {entry : String × Nat} :
    ∃ c, (before ++ record opens closes entry).getLast? = some c ∧ c.isDigit = true := by
  obtain ⟨c, last⟩ := Option.ne_none_iff_exists'.mp
    (mt List.getLast?_eq_none_iff.mp (@Nat.toDigits_ne_nil entry.2 10))
  refine ⟨c, ?_, toDigits_last last⟩
  simp [record, List.getLast?_append, List.getLast?_cons, last]

theorem record_inj (mark : closes.isDigit = false)
    (name : opens ∉ entry.1.toList) (name' : opens ∉ entry'.1.toList)
    (same : before ++ record opens closes entry = before' ++ record opens closes entry') :
    before = before' ∧ entry = entry' := by
  have numbered : (before ++ opens :: entry.1.toList) ++ closes :: Nat.toDigits 10 entry.2 =
      (before' ++ opens :: entry'.1.toList) ++ closes :: Nat.toDigits 10 entry'.2 := by
    simpa [record] using same
  obtain ⟨names, digits⟩ := append_cons_inj_last (notMem_toDigits mark) (notMem_toDigits mark) numbered
  obtain ⟨lead, texts⟩ := append_cons_inj_last name name' names
  exact ⟨lead, Prod.ext (String.toList_inj.mp texts) (toDigits_inj digits)⟩

/-- A lead that does not end in a digit and records whose names have no opening mark are
read back from the text. -/
theorem records_inj {entries entries' : List (String × Nat)} (mark : closes.isDigit = false)
    (names : ∀ entry ∈ entries, opens ∉ entry.1.toList) (names' : ∀ entry ∈ entries', opens ∉ entry.1.toList)
    (ends : ∀ c, lead.getLast? = some c → c.isDigit = false) (ends' : ∀ c, lead'.getLast? = some c → c.isDigit = false)
    (same : lead ++ entries.flatMap (record opens closes) = lead' ++ entries'.flatMap (record opens closes)) :
    lead = lead' ∧ entries = entries' := by
  induction entries using List.reverseRecOn generalizing entries' with
  | nil =>
    rcases List.eq_nil_or_concat entries' with rfl | ⟨front, last, rfl⟩
    · exact ⟨by simpa using same, rfl⟩
    obtain ⟨c, found, digit⟩ := @getLast_record opens closes (lead' ++ front.flatMap (record opens closes)) last
    have reads : lead = lead' ++ front.flatMap (record opens closes) ++ record opens closes last := by
      simpa using same
    rw [← reads] at found
    simp [ends c found] at digit
  | append_singleton front last ih =>
    rcases List.eq_nil_or_concat entries' with rfl | ⟨front', last', rfl⟩
    · obtain ⟨c, found, digit⟩ := @getLast_record opens closes (lead ++ front.flatMap (record opens closes)) last
      have reads : lead ++ front.flatMap (record opens closes) ++ record opens closes last = lead' := by
        simpa using same
      rw [reads] at found
      simp [ends' c found] at digit
    have reads : lead ++ front.flatMap (record opens closes) ++ record opens closes last =
        lead' ++ front'.flatMap (record opens closes) ++ record opens closes last' := by
      simpa using same
    obtain ⟨fronts, rfl⟩ := record_inj mark (names last (by simp)) (names' last' (by simp)) reads
    obtain ⟨leads, rfl⟩ := ih (fun entry member => names entry (by simp [member]))
      (fun entry member => names' entry (by simp [member])) fronts
    exact ⟨leads, List.concat_eq_append.symm⟩

end Swarmada.Text
