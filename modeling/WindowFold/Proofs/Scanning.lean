import Mathlib
import WindowFold.Yaml.Quoting
import WindowFold.Yaml.Token.Lexer

/-! Scalars read back. Text that fits into plain style is read as itself up to
the colon or the line break behind it, and so is quoted text up to its last quote. -/
namespace WindowFold.Yaml

theorem isBreak_of_shown {c : Char} (shown : isShown c = true) : isBreak c = false := by
  rw [isShown, Bool.and_eq_true, Bool.not_eq_true'] at shown
  exact shown.2

theorem isBlank_of_shown {c : Char} (shown : isShown c = true) : isBlank c = decide (c = ' ') := by
  have tab : c ≠ '\t' := by
    rintro rfl
    cases shown
  rw [isBlank, decide_eq_false tab, Bool.or_false]

/-- What a line begins with: neither a blank nor a comment, unless it is empty. -/
def Begins (line : List Char) : Prop :=
  ∀ c ∈ line.head?, isShown c = true ∧ c ≠ ' ' ∧ c ≠ '#'

/-! ### Places -/

namespace Position

def past (p : Position) (cs : List Char) : Position := cs.foldl after p

@[simp] theorem past_cons (p : Position) (c : Char) (cs : List Char) :
    p.past (c :: cs) = (p.after c).past cs := rfl

theorem after_inLine {c : Char} (inLine : isBreak c = false) (p : Position) :
    p.after c = ⟨p.column + 1, p.line, p.offset + c.utf8Size⟩ := by
  rw [after, inLine]
  rfl

theorem past_inLine {cs : List Char} (inLine : ∀ c ∈ cs, isBreak c = false) (p : Position) :
    p.past cs = ⟨p.column + cs.length, p.line, p.offset + (cs.map Char.utf8Size).sum⟩ := by
  induction cs generalizing p with
  | nil => rfl
  | cons c rest ih =>
    obtain ⟨first, later⟩ := List.forall_mem_cons.1 inLine
    rw [past_cons, ih later, after_inLine first]
    simp only [List.length_cons, List.map_cons, List.sum_cons]
    congr 1 <;> omega

theorem column_past_blanks (p : Position) (count : Nat) :
    (p.past (blanks count)).column = p.column + count := by
  have inLine : ∀ c ∈ blanks count, isBreak c = false := by
    intro c member
    rw [List.eq_of_mem_replicate member]
    rfl
  rw [past_inLine inLine, blanks, List.length_replicate]

theorem line_le_past (p : Position) (cs : List Char) : p.line ≤ (p.past cs).line := by
  induction cs generalizing p with
  | nil => exact le_rfl
  | cons c rest ih =>
    have one : p.line ≤ (p.after c).line := by
      rw [after]
      split
      · exact Nat.le_succ _
      · exact le_rfl
    exact one.trans (ih _)

theorem past_newLine (p : Position) (count : Nat) :
    (p.past ('\n' :: blanks count)).column = count ∧
      p.line < (p.past ('\n' :: blanks count)).line := by
  constructor
  · rw [past_cons, column_past_blanks]
    exact Nat.zero_add count
  · exact line_le_past (p.after '\n') (blanks count)

end Position

theorem Place.atMark_of_column {p : Place} (inside : p.column ≠ 0) : p.atMark = false := by
  rw [atMark, decide_eq_false inside]
  rfl

theorem Place.atMark_after {c : Char} (inLine : isBreak c = false) (rest : List Char)
    (p : Position) : Place.atMark ⟨rest, p.after c⟩ = false := by
  apply atMark_of_column
  rw [column, Position.after_inLine inLine]
  exact Nat.succ_ne_zero _

/-! ### Plain text -/

/-- Plain text is read up to its last character, which no blank is. -/
theorem readPlainFrom_text {cs tail : List Char} {level : Nat} {p : Position}
    {text reversed : List Char} (shown : ∀ c ∈ cs, isShown c = true)
    (free : hasInnerSign (!reversed.isEmpty) cs = false) (some_ : cs ≠ [])
    (last : cs.getLast? ≠ some ' ') (mark : Place.atMark ⟨cs ++ tail, p⟩ = false) :
    readPlainFrom false level (cs ++ tail) p text (.blanks reversed) =
      readPlainFrom false level tail (p.past cs) (cs.reverse ++ (reversed ++ text)) .none := by
  induction cs generalizing p text reversed with
  | nil => exact absurd rfl some_
  | cons c rest ih =>
    obtain ⟨here, later⟩ := List.forall_mem_cons.1 shown
    have inLine := isBreak_of_shown here
    have next := Place.atMark_after inLine (rest ++ tail) p
    rw [hasInnerSign, Bool.or_eq_false_iff, Bool.or_eq_false_iff] at free
    obtain ⟨⟨colon, hash⟩, free⟩ := free
    rw [List.cons_append, readPlainFrom, isBlank_of_shown here]
    by_cases blank : c = ' '
    · -- More text follows the blank, so it is kept.
      have more : rest ≠ [] := by
        rintro rfl
        exact last (congrArg some blank)
      have behind : rest.getLast? ≠ some ' ' := by
        rwa [List.getLast?_cons_of_ne_nil more] at last
      have inner : hasInnerSign (!(c :: reversed).isEmpty) rest = false := by
        rwa [isBlank_of_shown here, decide_eq_true blank] at free
      simp only [Gap.onNewLine, Bool.false_and, Bool.false_eq_true, if_false, Gap.addBlank,
        decide_eq_true blank, if_true]
      rw [ih later inner more behind next]
      simp
    · have word : endsPlain false (.blanks reversed) c (rest ++ tail) = false := by
        have ends : (c = ':' && endsWord (rest ++ tail)) = false := by
          cases rest with
          | nil =>
            have other : c ≠ ':' := by simpa [endsWord] using colon
            rw [decide_eq_false other]
            rfl
          | cons d rest => exact colon
        have comment : (c = '#' && !(Gap.blanks reversed).isEmpty) = false := by
          rw [← hash]
          cases reversed <;> rfl
        rw [endsPlain, comment, ends]
        rfl
      have inner : hasInnerSign (!([] : List Char).isEmpty) rest = false := by
        rwa [isBlank_of_shown here, decide_eq_false blank] at free
      rw [List.cons_append] at mark
      simp only [decide_eq_false blank, inLine, Bool.false_eq_true, if_false, Gap.onNewLine,
        Bool.false_and, mark, Bool.or_false, strayColon, Bool.and_false, word, Gap.onto, Gap.none]
      rcases List.eq_nil_or_concat rest with rfl | ⟨_, _, same⟩
      · rfl
      · have more : rest ≠ [] := by
          rw [same]
          simp
        rw [List.getLast?_cons_of_ne_nil more] at last
        rw [ih later inner more last next]
        simp [Gap.none]

/-- A colon that ends a word ends plain text. -/
theorem readPlainFrom_colon {rest : List Char} (ends : endsWord rest = true) {level : Nat}
    {p : Position} (inside : p.column ≠ 0) (text : List Char) :
    readPlainFrom false level (':' :: rest) p text .none =
      some ⟨String.ofList text.reverse, ⟨':' :: rest, p⟩, false⟩ := by
  have mark : Place.atMark ⟨':' :: rest, p⟩ = false := Place.atMark_of_column inside
  have blank : isBlank ':' = false := by decide
  have inLine : isBreak ':' = false := by decide
  rw [readPlainFrom]
  simp only [blank, inLine, mark, Gap.none, Gap.onNewLine, endsPlain, ends, strayColon,
    Bool.false_and, Bool.or_false, Bool.and_false, Bool.false_eq_true, if_false, decide_true,
    Bool.true_and, Bool.or_true, if_true]

/-- Blanks of a line that nothing has been read of yet. -/
theorem readPlainFrom_indent {line : List Char} {level : Nat} (count : Nat) (p : Position)
    (text : List Char) (first : Option Char) (later : List Char) :
    readPlainFrom false level (blanks count ++ line) p text (.breaks first later) =
      readPlainFrom false level line (p.past (blanks count)) text (.breaks first later) := by
  induction count generalizing p with
  | zero => rfl
  | succ count ih =>
    have more : blanks (count + 1) = ' ' :: blanks count := List.replicate_succ
    have blank : isBlank ' ' = true := by decide
    rw [more, List.cons_append, readPlainFrom]
    simp only [blank, if_true, Gap.addBlank, Gap.onNewLine, Bool.true_and]
    rw [decide_eq_false (show ' ' ≠ '\t' by decide), Bool.and_false, if_neg Bool.false_ne_true,
      ih, Position.past_cons]

/-- A line that begins before the column of plain text does not belong to it. -/
theorem readPlainFrom_newLine {line : List Char} (begins : Begins line) {level count : Nat}
    (before : count < level) (p : Position) (text : List Char) :
    readPlainFrom false level ('\n' :: (blanks count ++ line)) p text .none =
      some ⟨String.ofList text.reverse, ⟨line, p.past ('\n' :: blanks count)⟩, true⟩ := by
  have blank : isBlank '\n' = false := by decide
  have ends : isBreak '\n' = true := by decide
  rw [readPlainFrom]
  simp only [blank, ends, Bool.false_eq_true, if_false, if_true, Gap.none, Gap.addBreak]
  rw [readPlainFrom_indent, Position.past_cons]
  have column := (p.past_newLine count).1
  rw [Position.past_cons] at column
  cases line with
  | nil => rfl
  | cons c rest =>
    obtain ⟨shown, visible, _⟩ := begins c rfl
    rw [readPlainFrom, isBlank_of_shown shown, isBreak_of_shown shown, column]
    simp [visible, Gap.onNewLine, before]

/-! ### Quoted text -/

/-- Quoted text is read up to its last quote. -/
theorem readSingleFrom_text {cs tail : List Char} (shown : ∀ c ∈ cs, isShown c = true)
    (single : tail.head? ≠ some '\'') (column : Nat) {p : Position} (inside : p.column ≠ 0)
    (text reversed : List Char) :
    readSingleFrom (writeSingleFrom column false cs ++ tail) p text (.blanks reversed) =
      some ⟨String.ofList (cs.reverse ++ (reversed ++ text)).reverse,
        ⟨tail, p.past (writeSingleFrom column false cs)⟩, false⟩ := by
  induction cs generalizing p text reversed with
  | nil =>
    change readSingleFrom ('\'' :: tail) p text (.blanks reversed) = _
    rw [readSingleFrom]
    · rfl
    · rintro rest _ rfl
      exact single rfl
  | cons c rest ih =>
    obtain ⟨here, later⟩ := List.forall_mem_cons.1 shown
    have inLine := isBreak_of_shown here
    have next : ∀ q : Position, (q.after c).column ≠ 0 := by
      intro q
      rw [Position.after_inLine inLine]
      exact Nat.succ_ne_zero _
    rw [writeSingleFrom, inLine]
    by_cases quote : c = '\''
    · subst quote
      change readSingleFrom ('\'' :: '\'' :: (writeSingleFrom column false rest ++ tail)) p text
        (.blanks reversed) = _
      rw [readSingleFrom, Gap.none, ih later (next _)]
      simp [Gap.onto]
    · have mark : Place.atMark ⟨c :: (writeSingleFrom column false rest ++ tail), p⟩ = false :=
        Place.atMark_of_column inside
      simp only [quote, Bool.false_eq_true, if_false, List.nil_append, List.cons_append]
      rw [readSingleFrom]
      · by_cases blank : c = ' '
        · simp only [quote, if_false, isBlank_of_shown here, decide_eq_true blank, if_true,
            Gap.addBlank]
          rw [ih later (next p)]
          simp
        · simp only [quote, if_false, isBlank_of_shown here, decide_eq_false blank, inLine, mark,
            Bool.false_eq_true, Gap.none]
          rw [ih later (next p)]
          simp [Gap.onto]
      · rintro _ rfl
        exact absurd rfl quote

/-- One line without a break fits into single quotes. -/
theorem fitsSingle_of_shown {cs : List Char} (shown : ∀ c ∈ cs, isShown c = true) :
    fitsSingle cs = true := by
  have all : cs.all (fun c => isShown c || (isBreak c && c ≠ '\n')) = true := by
    rw [List.all_eq_true]
    intro c member
    rw [shown c member]
    rfl
  have trailing : hasTrailingBlank cs = false := by
    clear all
    induction cs with
    | nil => rfl
    | cons c rest ih =>
      obtain ⟨_, later⟩ := List.forall_mem_cons.1 shown
      have behind : rest.head?.any isBreak = false := by
        cases rest with
        | nil => rfl
        | cons d _ => exact isBreak_of_shown (later d List.mem_cons_self)
      rw [hasTrailingBlank, behind, ih later]
      simp
  have leading : hasLeadingBlank cs = false := by
    clear all trailing
    induction cs with
    | nil => rfl
    | cons c rest ih =>
      obtain ⟨here, later⟩ := List.forall_mem_cons.1 shown
      rw [hasLeadingBlank, isBreak_of_shown here, ih later]
      rfl
  rw [fitsSingle, all, trailing, leading]
  rfl

/-! ### Between tokens -/

theorem Lexer.skipGap_begins {line : List Char} (begins : Begins line) (inFlow : Bool)
    (p : Position) (keyAllowed : Bool) :
    skipGap inFlow line p keyAllowed false = (⟨line, p⟩, keyAllowed) := by
  cases line with
  | nil => rfl
  | cons c rest =>
    obtain ⟨shown, visible, comment⟩ := begins c rfl
    have tab : c ≠ '\t' := by
      rintro rfl
      cases shown
    have order : c ≠ '\ufeff' := by
      rintro rfl
      cases shown
    rw [skipGap, isBreak_of_shown shown]
    simp [visible, comment, tab, order]

/-- Blanks before a token. -/
theorem Lexer.skipGap_blanks {line : List Char} (begins : Begins line) (count : Nat) (p : Position)
    (keyAllowed : Bool) :
    skipGap false (blanks count ++ line) p keyAllowed false =
      (⟨line, p.past (blanks count)⟩, keyAllowed) := by
  induction count generalizing p with
  | zero => exact skipGap_begins begins false p keyAllowed
  | succ count ih =>
    have more : blanks (count + 1) = ' ' :: blanks count := List.replicate_succ
    rw [more, List.cons_append, skipGap, if_neg (by decide), if_pos (by simp), ih,
      Position.past_cons]

/-- A new line may begin with a key. -/
theorem Lexer.skipGap_newLine {line : List Char} (begins : Begins line) (count : Nat) (p : Position)
    (keyAllowed : Bool) :
    skipGap false ('\n' :: (blanks count ++ line)) p keyAllowed false =
      (⟨line, p.past ('\n' :: blanks count)⟩, true) := by
  rw [skipGap, if_pos (by decide), Bool.not_false, Bool.or_true, skipGap_blanks begins,
    Position.past_cons]

end WindowFold.Yaml
