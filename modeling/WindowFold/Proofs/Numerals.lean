import Mathlib
import WindowFold.Yaml.Quoting

/-! Numbers as plain text. What is written of a number is plain, and is read as the number. -/
namespace WindowFold.Yaml

theorem toNat_digit {c : Char} (digit : c.isDigit = true) : 48 ≤ c.toNat ∧ c.toNat ≤ 57 := by
  simp only [Char.isDigit, Bool.and_eq_true, decide_eq_true_eq, ge_iff_le] at digit
  exact digit

namespace Plain

theorem hexDigit?_digit {c : Char} (digit : c.isDigit = true) :
    hexDigit? c = some (c.toNat - '0'.toNat) ∧ c.toNat - '0'.toNat < 10 := by
  refine ⟨by rw [hexDigit?, if_pos digit], ?_⟩
  obtain ⟨_, last⟩ := toNat_digit digit
  have first : '0'.toNat = 48 := rfl
  omega

/-- Digits are read as the number that they stand for. -/
theorem digits?_eq {cs : List Char} (some_ : cs ≠ []) (digits : ∀ c ∈ cs, c.isDigit = true) :
    digits? 10 cs = some (Nat.ofDigitChars 10 cs 0) := by
  rw [digits?, if_neg (by simpa using some_)]
  -- The induction is for any number that the digits go on from.
  generalize 0 = n
  clear some_
  induction cs generalizing n with
  | nil => rfl
  | cons c rest ih =>
    obtain ⟨read, small⟩ := hexDigit?_digit (digits c List.mem_cons_self)
    rw [List.foldl_cons, read, Nat.ofDigitChars_cons]
    dsimp only
    rw [if_pos small]
    exact ih (fun d member => digits d (List.mem_cons_of_mem _ member)) _

/-- A number has no zero in front of other digits. -/
theorem head_toDigits {n : Nat} (positive : 0 < n) : (Nat.toDigits 10 n).head? ≠ some '0' := by
  induction n using Nat.strongRecOn with
  | ind n ih =>
    by_cases small : n < 10
    · rw [Nat.toDigits_of_lt_base small]
      interval_cases n <;> decide
    · rw [Nat.toDigits_of_base_le (by decide) (Nat.le_of_not_lt small),
        List.head?_append_of_ne_nil _ Nat.toDigits_ne_nil]
      exact ih (n / 10) (by omega) (by omega)

theorem magnitude?_toDigits (n : Nat) : magnitude? (Nat.toDigits 10 n) = some n := by
  have digits : ∀ c ∈ Nat.toDigits 10 n, c.isDigit = true := fun c =>
    Nat.isDigit_of_mem_toDigits (by decide) (by decide)
  have read := digits?_eq Nat.toDigits_ne_nil digits
  rw [Nat.ofDigitChars_ten_toDigits] at read
  rcases Nat.eq_zero_or_pos n with rfl | positive
  · exact read
  have first := head_toDigits positive
  rw [← read, magnitude?]
  all_goals
    intros
    rename_i same
    simp [same] at first

theorem toList_toString (n : Nat) : (toString n).toList = Nat.toDigits 10 n := by
  rw [Nat.toString_eq_ofList_toDigits, String.toList_ofList]

theorem isDigit_of_mem {n : Nat} {c : Char} (member : c ∈ Nat.toDigits 10 n) :
    c.isDigit = true :=
  Nat.isDigit_of_mem_toDigits (by decide) (by decide) member

theorem natural?_toString (n : Nat) : natural? (toString n) = some n := by
  rw [natural?, toList_toString]
  split
  next cs same =>
    have digit : '+'.isDigit = true := by
      apply isDigit_of_mem (n := n)
      rw [same]
      exact List.mem_cons_self
    cases digit
  · exact magnitude?_toDigits n

theorem toList_negSucc (n : Nat) :
    (toString (Int.negSucc n)).toList = '-' :: Nat.toDigits 10 (n + 1) := by
  rw [← toList_toString]
  exact String.toList_append ..

theorem integer?_toString (i : Int) : integer? (toString i) = some i := by
  cases i with
  | ofNat n =>
    have same : toString (Int.ofNat n) = toString n := rfl
    rw [same, integer?, natural?_toString]
    split
    next cs led =>
      have digit : '-'.isDigit = true := by
        apply isDigit_of_mem (n := n)
        rw [← toList_toString, led]
        exact List.mem_cons_self
      cases digit
    · rfl
  | negSucc n =>
    rw [integer?, toList_negSucc]
    simp only [magnitude?_toDigits]
    rfl

end Plain

/-! ### Written plain -/

/-- The printable characters of ASCII are shown as they are. -/
theorem isShown_of_ascii {c : Char} (least : 32 ≤ c.toNat) (most : c.toNat ≤ 126) :
    isShown c = true := by
  have beyond : ∀ d : Char, 126 < d.toNat → c ≠ d := by
    rintro d far rfl
    omega
  have below : ∀ d : Char, d.toNat < 32 → c ≠ d := by
    rintro d near rfl
    omega
  have allowed : isAllowed c = true := by
    simp only [isAllowed, Bool.or_eq_true, Bool.and_eq_true, decide_eq_true_eq]
    omega
  have line : isBreak c = false := by
    rw [isBreak, decide_eq_false (below '\n' (by decide)),
      decide_eq_false (beyond '\u2028' (by decide)), decide_eq_false (beyond '\u2029' (by decide))]
    rfl
  rw [isShown, allowed, line, decide_eq_true least,
    decide_eq_true (beyond '\u0085' (by decide)), decide_eq_true (beyond '\ufeff' (by decide))]
  rfl

/-- A digit may stand anywhere in plain text. -/
theorem of_digit {c : Char} (digit : c.isDigit = true) :
    isShown c = true ∧ isBlank c = false ∧ isFlowSign c = false ∧ c ∉ reservedSigns ∧
      c ≠ ':' ∧ c ≠ '-' ∧ c ≠ '.' ∧ c ≠ '?' := by
  obtain ⟨least, most⟩ := toNat_digit digit
  refine ⟨isShown_of_ascii (by omega) (by omega), ?_⟩
  rw [← Char.ofNat_toNat c]
  interval_cases c.toNat <;> decide

theorem hasInnerSign_of_free {cs : List Char} (free : ∀ c ∈ cs, c ≠ ':' ∧ c ≠ '#')
    (afterBlank : Bool) : hasInnerSign afterBlank cs = false := by
  induction cs generalizing afterBlank with
  | nil => rfl
  | cons c rest ih =>
    obtain ⟨colon, hash⟩ := free c List.mem_cons_self
    rw [hasInnerSign, ih fun d member => free d (List.mem_cons_of_mem _ member)]
    simp [colon, hash]

/-- Digits need no quotes, nor do digits behind a minus sign. -/
theorem fitsPlain_digits {cs : List Char} (some_ : cs ≠ []) (digits : ∀ c ∈ cs, c.isDigit = true) :
    fitsPlain cs = true ∧ fitsPlain ('-' :: cs) = true := by
  have free : ∀ c ∈ cs, c ≠ ':' ∧ c ≠ '#' := by
    intro c member
    obtain ⟨_, _, _, reserved, colon, _⟩ := of_digit (digits c member)
    refine ⟨colon, ?_⟩
    rintro rfl
    exact reserved (by decide)
  have signed : ∀ c ∈ '-' :: cs, c ≠ ':' ∧ c ≠ '#' := by
    rintro c (_ | ⟨_, member⟩)
    · decide
    · exact free c member
  have shown : cs.all isShown = true :=
    List.all_eq_true.2 fun c member => (of_digit (digits c member)).1
  have last : cs.getLast? ≠ some ' ' := by
    intro blank
    cases digits _ (List.mem_of_getLast? blank)
  obtain ⟨c, rest, rfl⟩ := List.exists_cons_of_ne_nil some_
  obtain ⟨visible, blank, flow, reserved, colon, minus, point, mark⟩ :=
    of_digit (digits c List.mem_cons_self)
  have first : c ≠ ' ' := by
    rintro rfl
    cases blank
  have start : hasStartSign (c :: rest) = false := by
    rw [hasStartSign]
    · simp [flow, reserved, minus, mark, colon]
    · rintro _ rfl
      exact absurd rfl minus
    · rintro _ rfl
      exact absurd rfl point
  have behind : hasStartSign ('-' :: c :: rest) = false := by
    have line : isBreak c = false := by
      rw [isShown, Bool.and_eq_true, Bool.not_eq_true'] at visible
      exact visible.2
    rw [hasStartSign]
    · simp [endsWord, blank, line, isFlowSign, reservedSigns]
    · intro _ _ same
      exact minus (List.cons.inj same).1
    · intro _ same
      cases same
  constructor
  · rw [fitsPlain, shown, start, hasInnerSign_of_free free]
    simp [first, last]
  · rw [fitsPlain, List.all_cons, shown, behind, hasInnerSign_of_free signed,
      List.getLast?_cons_cons, isShown_of_ascii (by decide) (by decide)]
    simp [last]

theorem fitsPlain_natural (n : Nat) : fitsPlain (toString n).toList = true := by
  rw [Plain.toList_toString]
  exact (fitsPlain_digits Nat.toDigits_ne_nil fun _ => Plain.isDigit_of_mem).1

theorem fitsPlain_integer (i : Int) : fitsPlain (toString i).toList = true := by
  cases i with
  | ofNat n => exact fitsPlain_natural n
  | negSucc n =>
    rw [Plain.toList_negSucc]
    exact (fitsPlain_digits Nat.toDigits_ne_nil fun _ => Plain.isDigit_of_mem).2

end WindowFold.Yaml
