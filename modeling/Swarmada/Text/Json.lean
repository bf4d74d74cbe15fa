import Swarmada.Text.Records

namespace Swarmada.Text.Json

def short : Char → Option Char
  | '"' => some '"'
  | '\\' => some '\\'
  | '\x08' => some 'b'
  | '\x0c' => some 'f'
  | '\n' => some 'n'
  | '\r' => some 'r'
  | '\t' => some 't'
  | _ => none

def long : Char → Option Char
  | '"' => some '"'
  | '\\' => some '\\'
  | 'b' => some '\x08'
  | 'f' => some '\x0c'
  | 'n' => some '\n'
  | 'r' => some '\r'
  | 't' => some '\t'
  | _ => none

def coded (c : Char) : Bool :=
  c.toNat < 32 || c == '<' || c == '>' || c == '&' || c.toNat == 0x2028 || c.toNat == 0x2029

def digit (n : Nat) : Char := (['0', '1', '2', '3', '4', '5', '6', '7', '8', '9', 'a', 'b', 'c', 'd', 'e', 'f'].getD n '0')

def value (c : Char) : Nat :=
  ['0', '1', '2', '3', '4', '5', '6', '7', '8', '9', 'a', 'b', 'c', 'd', 'e', 'f'].idxOf c

def escape (c : Char) : List Char :=
  match short c with
  | some letter => ['\\', letter]
  | none =>
    if coded c then
      ['\\', 'u', digit (c.toNat / 4096), digit (c.toNat / 256 % 16), digit (c.toNat / 16 % 16), digit (c.toNat % 16)]
    else [c]

def readCode : List Char → Option (Char × List Char)
  | a :: b :: c :: d :: rest => some (Char.ofNat (((value a * 16 + value b) * 16 + value c) * 16 + value d), rest)
  | _ => none

/-- The first character of a string's text; none at its closing quote. -/
def read : List Char → Option (Char × List Char)
  | [] => none
  | first :: rest =>
    if first = '"' then none
    else if first = '\\' then
      match rest with
      | [] => none
      | letter :: rest => if letter = 'u' then readCode rest else (long letter).map fun c => (c, rest)
    else some (first, rest)

theorem value_digit (small : n < 16) : value (digit n) = n := by
  have all : ∀ n < 16, value (digit n) = n := by decide
  exact all n small

theorem short_long (escaped : short c = some letter) : long letter = some c ∧ letter ≠ 'u' := by
  unfold short at escaped
  split at escaped <;> first | (cases escaped; exact ⟨rfl, by decide⟩) | cases escaped

theorem short_none (plain : short c = none) : c ≠ '"' ∧ c ≠ '\\' := by
  constructor
  · rintro rfl
    cases plain
  · rintro rfl
    cases plain

theorem coded_small (code : coded c = true) : c.toNat < 65536 := by
  simp only [coded, Bool.or_eq_true, decide_eq_true_eq, beq_iff_eq] at code
  rcases code with ((((_ | rfl) | rfl) | rfl) | _) | _
  · omega
  · decide
  · decide
  · decide
  · omega
  · omega

theorem readCode_digits (small : n < 65536) (rest : List Char) :
    readCode (digit (n / 4096) :: digit (n / 256 % 16) :: digit (n / 16 % 16) :: digit (n % 16) :: rest) =
      some (Char.ofNat n, rest) := by
  have sum : ((n / 4096 * 16 + n / 256 % 16) * 16 + n / 16 % 16) * 16 + n % 16 = n := by omega
  rw [readCode, value_digit (by omega), value_digit (by omega), value_digit (by omega), value_digit (by omega), sum]

theorem read_escape (c : Char) (rest : List Char) : read (escape c ++ rest) = some (c, rest) := by
  unfold escape
  cases escaped : short c with
  | some =>
    obtain ⟨back, other⟩ := short_long escaped
    simp [read, other, back]
  | none =>
    obtain ⟨quote, slash⟩ := short_none escaped
    by_cases code : coded c = true
    · simp [code, read, readCode_digits (coded_small code)]
    · simp [code, read, quote, slash]

/-- The punctuation between values. -/
@[irreducible]
def literal (text : String) : List Char := text.toList

@[irreducible]
def number (n : Nat) : List Char := Nat.toDigits 10 n

def string (text : String) : List Char := '"' :: (text.toList.flatMap escape ++ ['"'])

variable {rest rest' : List Char}

theorem escaped_inj {chars chars' : List Char}
    (same : chars.flatMap escape ++ '"' :: rest = chars'.flatMap escape ++ '"' :: rest') :
    chars = chars' ∧ rest = rest' := by
  have stops : ∀ rest, read ('"' :: rest) = none := fun _ => rfl
  have reads : ∀ c chars rest, read ((c :: chars).flatMap escape ++ '"' :: rest) =
      some (c, chars.flatMap escape ++ '"' :: rest) := by
    intro c chars rest
    rw [List.flatMap_cons, List.append_assoc, read_escape]
  induction chars generalizing chars' with
  | nil =>
    cases chars' with
    | nil => exact ⟨rfl, List.tail_eq_of_cons_eq same⟩
    | cons c chars' =>
      have first := (stops rest).symm.trans ((congrArg read same).trans (reads c chars' rest'))
      cases first
  | cons c chars ih =>
    have first := congrArg read same
    rw [reads] at first
    cases chars' with
    | nil => cases first
    | cons =>
      rw [reads] at first
      obtain ⟨rfl, others⟩ := Prod.mk.inj (Option.some.inj first)
      obtain ⟨rfl, rest⟩ := ih others
      exact ⟨rfl, rest⟩

theorem string_inj (same : string text ++ rest = string text' ++ rest') : text = text' ∧ rest = rest' := by
  simp only [string, List.cons_append, List.append_assoc, List.nil_append, List.cons.injEq, true_and] at same
  obtain ⟨chars, rest⟩ := escaped_inj same
  exact ⟨String.toList_inj.mp chars, rest⟩

variable {lead : String}

/-- A literal and the string after it. -/
theorem member_inj (same : literal lead ++ (string text ++ rest) = literal lead ++ (string text' ++ rest')) :
    text = text' ∧ rest = rest' :=
  string_inj (List.append_cancel_left same)

/-- A number is read up to the comma after it. -/
theorem number_inj (comma : after.toList.head? = some ',')
    (same : literal lead ++ (number n ++ (literal after ++ rest)) =
      literal lead ++ (number n' ++ (literal after ++ rest'))) : n = n' ∧ rest = rest' := by
  have starts : ∃ others, literal after = ',' :: others := by
    unfold literal
    exact List.head?_eq_some_iff.1 comma
  obtain ⟨_, starts⟩ := starts
  rw [starts] at same
  unfold number at same
  obtain ⟨digits, rest⟩ := append_cons_inj_first (notMem_toDigits rfl) (notMem_toDigits rfl)
    (List.append_cancel_left same)
  exact ⟨toDigits_inj digits, List.append_cancel_left rest⟩

/-- A member that is left out when it is empty; the text after it cannot be taken for it. -/
theorem optional_inj [DecidableEq α] {write : α → List Char}
    (apart : ∃ n < lead.toList.length, n < after.toList.length ∧ lead.toList[n]? ≠ after.toList[n]?)
    (reads : a ≠ empty → a' ≠ empty → ∀ {rest rest'}, write a ++ rest = write a' ++ rest' → a = a' ∧ rest = rest')
    (same : (if a = empty then [] else literal lead ++ write a) ++ (literal after ++ rest) =
      (if a' = empty then [] else literal lead ++ write a') ++ (literal after ++ rest')) : a = a' ∧ rest = rest' := by
  have differ : ∀ rest rest', literal lead ++ rest ≠ literal after ++ rest' := by
    obtain ⟨n, inLead, inAfter, differs⟩ := apart
    intro rest rest' same
    unfold literal at same
    have chars := congrArg (fun text => text[n]?) same
    rw [List.getElem?_append_left inLead, List.getElem?_append_left inAfter] at chars
    exact differs chars
  by_cases nothing : a = empty
  · by_cases nothing' : a' = empty
    · rw [if_pos nothing, if_pos nothing', List.nil_append, List.nil_append] at same
      exact ⟨nothing.trans nothing'.symm, List.append_cancel_left same⟩
    · rw [if_pos nothing, if_neg nothing', List.nil_append, List.append_assoc] at same
      exact absurd same.symm (differ _ _)
  by_cases nothing' : a' = empty
  · rw [if_neg nothing, if_pos nothing', List.nil_append, List.append_assoc] at same
    exact absurd same (differ _ _)
  rw [if_neg nothing, if_neg nothing', List.append_assoc, List.append_assoc] at same
  obtain ⟨values, rest⟩ := reads nothing nothing' (List.append_cancel_left same)
  exact ⟨values, List.append_cancel_left rest⟩

def pair (member : String × String) : List Char := string member.1 ++ ':' :: string member.2

theorem pair_inj (same : pair member ++ rest = pair member' ++ rest') : member = member' ∧ rest = rest' := by
  simp only [pair, List.append_assoc, List.cons_append] at same
  obtain ⟨keys, others⟩ := string_inj same
  obtain ⟨texts, rest⟩ := string_inj (List.tail_eq_of_cons_eq others)
  exact ⟨Prod.ext keys texts, rest⟩

def members : List (String × String) → List Char
  | [] => ['\x7d']
  | member :: others => ',' :: (pair member ++ members others)

def map : List (String × String) → List Char
  | [] => ['\x7b', '\x7d']
  | member :: others => '\x7b' :: (pair member ++ members others)

theorem members_inj (same : members pairs ++ rest = members pairs' ++ rest') : pairs = pairs' ∧ rest = rest' := by
  induction pairs generalizing pairs' with
  | nil =>
    cases pairs' with
    | nil => exact ⟨rfl, List.tail_eq_of_cons_eq same⟩
    | cons => exact absurd (List.head_eq_of_cons_eq same) (by decide)
  | cons member others ih =>
    cases pairs' with
    | nil => exact absurd (List.head_eq_of_cons_eq same) (by decide)
    | cons =>
      simp only [members, List.cons_append, List.append_assoc, List.cons.injEq, true_and] at same
      obtain ⟨rfl, after⟩ := pair_inj same
      obtain ⟨rfl, rest⟩ := ih after
      exact ⟨rfl, rest⟩

theorem map_inj (nonempty : pairs ≠ [])
    (nonempty' : pairs' ≠ []) (same : map pairs ++ rest = map pairs' ++ rest') : pairs = pairs' ∧ rest = rest' := by
  cases pairs with
  | nil => exact absurd rfl nonempty
  | cons =>
    cases pairs' with
    | nil => exact absurd rfl nonempty'
    | cons =>
      simp only [map, List.cons_append, List.append_assoc, List.cons.injEq, true_and] at same
      obtain ⟨rfl, after⟩ := pair_inj same
      obtain ⟨rfl, rest⟩ := members_inj after
      exact ⟨rfl, rest⟩

theorem notMem_escape (c : Char) : '\n' ∉ escape c := by
  have digits : ∀ n < 16, '\n' ≠ digit n := by decide
  unfold escape
  cases escaped : short c with
  | some letter =>
    have other : '\n' ≠ letter := by
      rintro rfl
      have back := (short_long escaped).1
      cases back
    simp [other]
  | none =>
    by_cases code : coded c = true
    · have small := coded_small code
      simp [code, digits (c.toNat / 4096) (by omega), digits (c.toNat / 256 % 16) (by omega),
        digits (c.toNat / 16 % 16) (by omega), digits (c.toNat % 16) (by omega)]
    have other : '\n' ≠ c := by
      rintro rfl
      cases escaped
    simp [code, other]

theorem notMem_string (text : String) : '\n' ∉ string text := by
  simp [string, notMem_escape]

theorem notMem_members (pairs : List (String × String)) : '\n' ∉ members pairs := by
  induction pairs with
  | nil => decide
  | cons member others ih => simp [members, pair, notMem_string, ih]

theorem notMem_map (pairs : List (String × String)) : '\n' ∉ map pairs := by
  cases pairs with
  | nil => decide
  | cons => simp [map, pair, notMem_string, notMem_members]

end Swarmada.Text.Json
