import Mathlib
import WindowFold.Proofs.Scanning
import WindowFold.Yaml.Document
import WindowFold.Yaml.Layout

/-! What is written of a node is cut into the tokens of the node. Each round of
the lexer leads from one state between tokens to the next; the columns that are
open tell which collections a line continues and which it ends. -/
namespace WindowFold.Yaml

/-! ### Rounds -/

namespace Lexer

/-- A state outside of brackets, between tokens. -/
def outside (place : Place) (tokens : List Token) (columns : List Nat)
    (candidate : Option KeyCandidate) (keyAllowed : Bool) : Lexer :=
  ⟨place, tokens, tokens.length, columns, candidate, [], keyAllowed⟩

/-- The state in which collections deeper than its place are closed. -/
def shut (s : Lexer) : Lexer := s.closeUnless (· ≤ s.place.column)

/-- From one state that stands at a token to another, over any number of tokens. -/
inductive Leads : Lexer → Lexer → Prop
  | none (s : Lexer) : Leads s s
  | round {s t u v : Lexer} {c : Char} {rest : List Char} (here : s.place.rest = c :: rest)
      (step : s.step c rest = some t) (advance : t.advance = some u)
      (shorter : u.place.rest.length ≤ rest.length) (later : Leads u v) : Leads s v

theorem Leads.trans {s t u : Lexer} (first : Leads s t) (second : Leads t u) : Leads s u := by
  induction first with
  | none => exact second
  | round here step advance shorter _ ih => exact .round here step advance shorter (ih second)

/-- The tokens of a state that stands at a token. -/
def tokensFrom (fuel : Nat) (s : Lexer) : Option (List Token) :=
  match s.place.rest with
  | [] => s.reset.map (·.tokens.reverse)
  | c :: rest => (s.step c rest).bind (run fuel)

theorem run_succ (fuel : Nat) (s : Lexer) :
    s.run (fuel + 1) = s.advance.bind (tokensFrom fuel) := by
  rw [run]
  cases s.advance with
  | none => rfl
  | some t =>
    rw [Option.bind_some, tokensFrom]
    dsimp only
    cases t.place.rest with
    | nil => rfl
    | cons c rest =>
      dsimp only
      cases t.step c rest <;> rfl

/-- A round takes a character at least, so the fuel lasts. -/
theorem Leads.tokensFrom_eq {s t u : Lexer} (leads : Leads s t) (ended : t.place.rest = [])
    (reset : t.reset = some u) {fuel : Nat} (enough : s.place.rest.length ≤ fuel) :
    s.tokensFrom fuel = some u.tokens.reverse := by
  induction leads generalizing fuel with
  | none s =>
    rw [tokensFrom, ended]
    simp only [reset, Option.map_some]
  | round here step advance shorter _ ih =>
    rw [here, List.length_cons] at enough
    obtain ⟨fuel, rfl⟩ := Nat.exists_eq_add_of_le' (Nat.lt_of_lt_of_le (Nat.succ_pos _) enough)
    rw [tokensFrom, here]
    simp only [step, Option.bind_some]
    rw [run_succ, advance, Option.bind_some]
    exact ih ended reset (shorter.trans (Nat.le_of_succ_le_succ enough))

section States

variable {place next : Place} {tokens : List Token} {columns : List Nat}
  {candidate : Option KeyCandidate} {keyAllowed allowed : Bool}

theorem shut_kept (kept : ∀ column ∈ columns.head?, column ≤ place.column) :
    (outside place tokens columns candidate keyAllowed).shut =
      outside place tokens columns candidate keyAllowed :=
  closeUnless_kept fun column first => decide_eq_true (kept column first)

theorem shut_closed {column : Nat} (closed : place.column < column) :
    (outside place tokens (column :: columns) candidate keyAllowed).shut =
      (outside place (.blockEnd :: tokens) columns candidate keyAllowed).shut :=
  closeUnless_closed rfl rfl (decide_eq_false (Nat.not_le_of_lt closed))

theorem advance_outside
    (gap : skipGap false place.rest place.position keyAllowed false = (next, allowed)) :
    (outside place tokens columns candidate keyAllowed).advance =
      (outside next tokens columns candidate allowed).dropStale.map shut := by
  simp only [advance, outside, inFlow, List.isEmpty_nil, Bool.not_true, gap]
  rfl

theorem dropStale_none : (outside place tokens columns none keyAllowed).dropStale =
    some (outside place tokens columns none keyAllowed) := rfl

theorem dropStale_reached {k : KeyCandidate} (reached : k.reaches place.position = true) :
    (outside place tokens columns (some k) keyAllowed).dropStale =
      some (outside place tokens columns (some k) keyAllowed) := by
  simp [dropStale, outside, reached]

/-- What can be no key any more need not have been one. -/
theorem dropStale_passed (passed : ∀ k ∈ candidate,
      k.required = false ∧ k.reaches place.position = false) :
    (outside place tokens columns candidate keyAllowed).dropStale =
      some (outside place tokens columns none keyAllowed) := by
  cases candidate with
  | none => rfl
  | some k =>
    obtain ⟨free, stale⟩ := passed k rfl
    simp [dropStale, outside, free, stale]

/-- At the end, the last collection is closed. -/
theorem reset_outside (column : Nat) :
    (outside place tokens [column] none keyAllowed).reset =
      some (outside place (.blockEnd :: tokens) [] none false) := by
  rw [reset, closeUnless_closed rfl rfl rfl, closeUnless_kept (by rintro _ ⟨⟩)]
  rfl

end States

/-! ### Scalars -/

theorem eq_of_isMark {mark : Char} {cs : List Char} (marked : isMark mark cs = true) :
    ∃ rest, cs = mark :: mark :: mark :: rest := by
  rcases cs with _ | ⟨a, _ | ⟨b, _ | ⟨c, rest⟩⟩⟩
  iterate 3 cases marked
  simp only [isMark, Bool.and_eq_true, decide_eq_true_eq] at marked
  obtain ⟨⟨⟨rfl, rfl⟩, rfl⟩, _⟩ := marked
  exact ⟨rest, rfl⟩

theorem isMark_of_ne {mark c : Char} (other : c ≠ mark) (rest : List Char) :
    isMark mark (c :: rest) = false := by
  by_contra marked
  obtain ⟨_, same⟩ := eq_of_isMark (Bool.eq_true_of_not_eq_false marked)
  exact other (List.cons.inj same).1

theorem of_hasStartSign {c : Char} {rest : List Char} (start : hasStartSign (c :: rest) = false) :
    isMark '-' (c :: rest) = false ∧ isMark '.' (c :: rest) = false ∧ isFlowSign c = false ∧
      c ∉ reservedSigns ∧ (c = '-' ∨ c = '?' ∨ c = ':' → endsWord rest = false) := by
  have unmarked : isMark '-' (c :: rest) = false ∧ isMark '.' (c :: rest) = false := by
    constructor <;>
    · by_contra marked
      obtain ⟨_, same⟩ := eq_of_isMark (Bool.eq_true_of_not_eq_false marked)
      rw [same] at start
      cases start
  refine ⟨unmarked.1, unmarked.2, ?_⟩
  rw [hasStartSign] at start
  · simp only [Bool.or_eq_false_iff, Bool.and_eq_false_iff, List.contains_eq_mem,
      decide_eq_false_iff_not] at start
    obtain ⟨⟨flow, reserved⟩, word⟩ := start
    refine ⟨flow, reserved, ?_⟩
    tauto
  · rintro _ rfl rfl
    cases start
  · rintro _ rfl rfl
    cases start

section Scalars

variable {place : Place} {tokens : List Token} {columns : List Nat} {keyAllowed : Bool}

/-- The key that a token at a place may begin. -/
def candidateAt (place : Place) (count : Nat) (columns : List Nat) : Bool → Option KeyCandidate
  | true => some ⟨count, place.position, columns.head? = some place.column⟩
  | false => none

theorem text_outside {style : Style} {read : Place → Option ScalarRead} {r : ScalarRead}
    (found : read place = some r) :
    (outside place tokens columns none keyAllowed).text style read =
      some (outside r.place (.scalar style r.text :: tokens) columns
        (candidateAt place tokens.length columns keyAllowed) r.onNewLine) := by
  cases keyAllowed with
  | true =>
    simp only [text, saveCandidate, outside, if_true, dropCandidate, Option.map_some,
      Option.bind_some, found, inFlow, push]
    rfl
  | false =>
    simp only [text, saveCandidate, outside, Bool.false_eq_true, if_false, Option.bind_some, found,
      push]
    rfl

theorem startsPlain_outside {c : Char} {rest : List Char}
    (start : hasStartSign (c :: rest) = false) (blank : isBlank c = false)
    (inLine : isBreak c = false) :
    (outside place tokens columns none keyAllowed).startsPlain c rest = true := by
  obtain ⟨_, _, flow, reserved, word⟩ := of_hasStartSign start
  rw [startsPlain, blank, inLine]
  by_cases minus : c = '-'
  · have ends := word (.inl minus)
    cases rest with
    | nil => cases ends
    | cons d rest =>
      rw [endsWord, Bool.or_eq_false_iff] at ends
      simp [minus, ends.1]
  · by_cases mark : c = '?' ∨ c = ':'
    · simp [minus, mark, word (.inr mark), inFlow, outside]
    · simp [minus, mark, flow, reserved]

/-- Text that begins with no sign is plain. -/
theorem step_plain {c : Char} {rest : List Char} (start : hasStartSign (c :: rest) = false)
    (blank : isBlank c = false) (inLine : isBreak c = false) :
    (outside place tokens columns none keyAllowed).step c rest =
      (outside place tokens columns none keyAllowed).text .plain
        (readPlain false (outside place tokens columns none keyAllowed).level) := by
  obtain ⟨dashes, points, flow, reserved, word⟩ := of_hasStartSign start
  have own : c ≠ '%' ∧ c ≠ '&' ∧ c ≠ '*' ∧ c ≠ '!' ∧ c ≠ '|' ∧ c ≠ '>' ∧ c ≠ '\'' ∧ c ≠ '"' := by
    refine ⟨?_, ?_, ?_, ?_, ?_, ?_, ?_, ?_⟩ <;>
    · rintro rfl
      exact reserved (by decide)
  obtain ⟨percent, and_, star, bang, bar, angle, quote, quotes⟩ := own
  have open_ : c ≠ ',' ∧ c ≠ '[' ∧ c ≠ ']' ∧ c ≠ '\x7b' ∧ c ≠ '\x7d' := by
    simpa [isFlowSign, and_assoc] using flow
  obtain ⟨comma, bracket, closing, brace, ending⟩ := open_
  have signs : (decide (c = '-') && endsWord rest) = false ∧
      (decide (c = '?') && endsWord rest) = false ∧
      (decide (c = ':') && endsWord rest) = false := by
    refine ⟨?_, ?_, ?_⟩ <;>
    · rw [Bool.and_eq_false_imp]
      intro sign
      exact word (by simp_all)
  obtain ⟨minus, mark, colon⟩ := signs
  have braces : (outside place tokens columns none keyAllowed).inFlow = false := rfl
  rw [step, dashes, points, startsPlain_outside start blank inLine, braces]
  simp only [percent, and_, star, bang, bar, angle, quote, quotes, comma, bracket, closing, brace,
    ending, minus, mark, colon, decide_false, Bool.and_false, Bool.false_or, Bool.false_and,
    Bool.or_false, Bool.false_eq_true, if_false, if_true]

end Scalars

theorem of_fitsPlain {cs : List Char} (fits : fitsPlain cs = true) :
    (∀ c ∈ cs, isShown c = true) ∧ cs.head? ≠ some ' ' ∧ cs.getLast? ≠ some ' ' ∧
      hasStartSign cs = false ∧ hasInnerSign false cs = false := by
  simpa [fitsPlain, and_assoc] using fits

/-- What follows a plain text does not make its start a sign. -/
theorem hasStartSign_append {cs tail : List Char} (some_ : cs ≠ [])
    (start : hasStartSign cs = false) (sign : ∀ c ∈ tail.head?, c ≠ '-' ∧ c ≠ '.') :
    hasStartSign (cs ++ tail) = false := by
  obtain ⟨c, rest, rfl⟩ := List.exists_cons_of_ne_nil some_
  obtain ⟨_, _, flow, reserved, word⟩ := of_hasStartSign start
  rw [List.cons_append, hasStartSign]
  · have inner : c = '-' ∨ c = '?' ∨ c = ':' → endsWord (rest ++ tail) = false := by
      intro sign
      have ends := word sign
      cases rest with
      | nil => cases ends
      | cons d rest => exact ends
    simp only [Bool.or_eq_false_iff, Bool.and_eq_false_iff, List.contains_eq_mem,
      decide_eq_false_iff_not]
    tauto
  -- Three dashes or points would have to be in the text itself.
  · rintro _ rfl same
    rcases rest with _ | ⟨d, _ | ⟨e, rest⟩⟩
    · cases word (.inl rfl)
    · cases same
      exact (sign '-' rfl).1 rfl
    · cases same
      cases start
  · rintro _ rfl same
    rcases rest with _ | ⟨d, _ | ⟨e, rest⟩⟩
    · cases same
      exact (sign '.' rfl).2 rfl
    · cases same
      exact (sign '.' rfl).2 rfl
    · cases same
      cases start

/-- Plain text is one token, if what follows ends it. -/
theorem step_text {text : String} (fits : fitsPlain text.toList = true) (some_ : text ≠ "")
    {tail : List Char} (sign : ∀ c ∈ tail.head?, c ≠ '-' ∧ c ≠ '.') {p : Position}
    {tokens : List Token} {columns : List Nat} {keyAllowed : Bool} {place : Place}
    {onNewLine : Bool} (ends : readPlainFrom false
      (outside ⟨text.toList ++ tail, p⟩ tokens columns none keyAllowed).level tail
      (p.past text.toList) text.toList.reverse .none = some ⟨text, place, onNewLine⟩) :
    ∃ c rest, text.toList ++ tail = c :: rest ∧ tail.length ≤ rest.length ∧
      (outside ⟨text.toList ++ tail, p⟩ tokens columns none keyAllowed).step c rest =
        some (outside place (.scalar .plain text :: tokens) columns
          (candidateAt ⟨text.toList ++ tail, p⟩ tokens.length columns keyAllowed) onNewLine) := by
  obtain ⟨shown, head, last, start, inner⟩ := of_fitsPlain fits
  have some_ : text.toList ≠ [] := by simpa using some_
  have start := hasStartSign_append some_ start sign
  obtain ⟨c, rest, same⟩ := List.exists_cons_of_ne_nil some_
  have here : text.toList ++ tail = c :: (rest ++ tail) := by rw [same, List.cons_append]
  have first : isShown c = true := shown c (by rw [same]; exact List.mem_cons_self)
  rw [here] at start
  refine ⟨c, rest ++ tail, here, ?_, ?_⟩
  · rw [List.length_append]
    exact Nat.le_add_left _ _
  · have visible : c ≠ ' ' := by
      rintro rfl
      rw [same] at head
      exact head rfl
    have blank : isBlank c = false := by
      rw [isBlank_of_shown first, decide_eq_false visible]
    have mark : Place.atMark ⟨text.toList ++ tail, p⟩ = false := by
      obtain ⟨dashes, points, _⟩ := of_hasStartSign start
      rw [Place.atMark, here, dashes, points, Bool.or_false, Bool.and_false]
    have inner : hasInnerSign (!([] : List Char).isEmpty) text.toList = false := inner
    have found : readPlain false
        (outside ⟨text.toList ++ tail, p⟩ tokens columns none keyAllowed).level
          ⟨text.toList ++ tail, p⟩ = some ⟨text, place, onNewLine⟩ := by
      change readPlainFrom false _ (text.toList ++ tail) p [] (.blanks []) = _
      rw [readPlainFrom_text shown inner some_ last mark, List.append_nil, List.append_nil]
      exact ends
    rw [step_plain start blank (isBreak_of_shown first), text_outside found]

/-! ### Collections -/

/-- Opening a collection at a column, before its first token: it is open there
already, or it begins deeper than the collection that it is in. -/
inductive Opens (column : Nat) (token : Token) :
    List Nat → List Token → List Nat → List Token → Prop
  | already (columns : List Nat) (tokens : List Token) :
      Opens column token (column :: columns) tokens (column :: columns) tokens
  | deeper {columns : List Nat} (tokens : List Token) (within : ∀ d ∈ columns.head?, d < column) :
      Opens column token columns tokens (column :: columns) (token :: tokens)

namespace Opens

variable {column : Nat} {token : Token} {columns opened : List Nat} {tokens begun : List Token}

theorem head_le (opens : Opens column token columns tokens opened begun) :
    ∀ d ∈ columns.head?, d ≤ column := by
  cases opens with
  | already =>
    rintro _ ⟨⟩
    exact le_rfl
  | deeper _ within => exact fun d first => (within d first).le

theorem opened_eq (opens : Opens column token columns tokens opened begun) :
    ∃ outer, opened = column :: outer := by
  cases opens <;> exact ⟨_, rfl⟩

theorem openAt (opens : Opens column token columns tokens opened begun) (later : List Token)
    (place : Place) (candidate : Option KeyCandidate) (keyAllowed : Bool) :
    (outside place (later ++ tokens) columns candidate keyAllowed).openAt column tokens.length
        token = outside place (later ++ begun) opened candidate keyAllowed := by
  cases opens with
  | already => simp [Lexer.openAt, outside, level, inFlow]
  | deeper _ within =>
    have level : (outside place (later ++ tokens) columns candidate keyAllowed).level ≤ column := by
      cases columns with
      | nil => exact Nat.zero_le _
      | cons d _ => exact within d rfl
    rw [Lexer.openAt, if_neg (by simpa [inFlow, outside] using level)]
    simp [insert, outside]
    omega

end Opens

theorem Leads.single {s t u : Lexer} {c : Char} {rest : List Char}
    (here : s.place.rest = c :: rest) (step : s.step c rest = some t) (advance : t.advance = some u)
    (shorter : u.place.rest.length ≤ rest.length) : Leads s u :=
  .round here step advance shorter (.none u)

section Signs

variable {column : Nat} {columns opened : List Nat} {tokens begun : List Token} {p : Position}
  {rest : List Char}

theorem item_outside (opens : Opens column .sequenceStart columns tokens opened begun)
    (stands : p.column = column) :
    (outside ⟨'-' :: rest, p⟩ tokens columns none true).item =
      some (outside ⟨rest, p.after '-'⟩ (.item :: begun) opened none true) := by
  have opened := opens.openAt [] ⟨'-' :: rest, p⟩ none true
  rw [← stands] at opened
  have count : (outside ⟨'-' :: rest, p⟩ tokens columns none true).count = tokens.length := rfl
  have place : (outside ⟨'-' :: rest, p⟩ tokens columns none true).place.column = p.column := rfl
  rw [item, count, place]
  simp only [List.nil_append] at opened
  rw [opened]
  rfl

/-- A dash begins an item. -/
theorem leads_dash (opens : Opens column .sequenceStart columns tokens opened begun)
    (stands : p.column = column) (begins : Begins rest) :
    Leads (outside ⟨'-' :: ' ' :: rest, p⟩ tokens columns none true)
      (outside ⟨rest, (p.after '-').after ' '⟩ (.item :: begun) opened none true) := by
  have dashes : isMark '-' ('-' :: ' ' :: rest) = false := by cases rest <;> rfl
  have points : isMark '.' ('-' :: ' ' :: rest) = false := by cases rest <;> rfl
  have step : (outside ⟨'-' :: ' ' :: rest, p⟩ tokens columns none true).step '-' (' ' :: rest) =
      some (outside ⟨' ' :: rest, p.after '-'⟩ (.item :: begun) opened none true) := by
    rw [← item_outside opens stands, Lexer.step, dashes, points]
    simp [endsWord, isBlank]
  have column_ : ((p.after '-').after ' ').column = column + 2 := by
    rw [← stands]
    rfl
  apply Leads.single rfl step
  · rw [advance_outside (skipGap_blanks begins 1 (p.after '-') true), dropStale_none,
      Option.map_some, shut_kept]
    · rfl
    · intro d first
      obtain ⟨_, rfl⟩ := opens.opened_eq
      cases first
      exact (Nat.le_add_right column 2).trans_eq column_.symm
  · exact Nat.le_succ _

theorem step_colon (ends : endsWord rest = true) (s : Lexer) : s.step ':' rest = s.value := by
  rw [Lexer.step, isMark_of_ne (by decide), isMark_of_ne (by decide), ends]
  simp

theorem value_outside (opens : Opens column .mappingStart columns tokens opened begun)
    (token : Token) {k : KeyCandidate} (count : k.count = tokens.length)
    (stands : k.position.column = column) (keyAllowed : Bool) :
    (outside ⟨':' :: rest, p⟩ (token :: tokens) columns (some k) keyAllowed).value =
      some (outside ⟨rest, p.after ':'⟩ (.value :: token :: .key :: begun) opened none false) := by
  have key : (outside ⟨':' :: rest, p⟩ (token :: tokens) columns (some k) keyAllowed).insert
      k.count .key =
        outside ⟨':' :: rest, p⟩ ([token, .key] ++ tokens) columns (some k) keyAllowed := by
    simp [insert, outside, count]
  have opened := opens.openAt [token, .key] ⟨':' :: rest, p⟩ (some k) keyAllowed
  rw [← stands, ← count, ← key] at opened
  change some _ = _
  rw [opened]
  rfl

/-- A token at the end of its line. -/
theorem leads_lineEnd {s : Lexer} {behind : Place} {candidate : Option KeyCandidate}
    {keyAllowed : Bool} {c : Char} {line : List Char} {q : Position}
    (here : s.place.rest = c :: rest)
    (step : s.step c rest = some (outside behind tokens columns candidate keyAllowed))
    (gap : skipGap false behind.rest behind.position keyAllowed false = (⟨line, q⟩, true))
    (passed : ∀ k ∈ candidate, k.required = false ∧ k.reaches q = false)
    (shorter : line.length ≤ rest.length) :
    Leads s (outside ⟨line, q⟩ tokens columns none true).shut := by
  apply Leads.single here step
  · rw [advance_outside gap, dropStale_passed passed]
    rfl
  · rw [shut, closeUnless_place]
    exact shorter

/-- What stands deeper than the collection that it is in need not be a key, and
on a later line it is none. -/
theorem candidateAt_passed {d : Nat} {place : Place} {q : Position} (deep : d < place.column)
    (later : place.position.line < q.line) (count : Nat) (keyAllowed : Bool) :
    ∀ k ∈ candidateAt place count (d :: columns) keyAllowed,
      k.required = false ∧ k.reaches q = false := by
  cases keyAllowed with
  | false => rintro _ ⟨⟩
  | true =>
    rintro _ ⟨⟩
    constructor
    · apply decide_eq_false
      intro same
      exact deep.ne (Option.some.inj same)
    · rw [KeyCandidate.reaches, decide_eq_false later.ne]
      rfl

theorem candidateAt_reaches {place : Place} {c : Char} (inLine : isBreak c = false) (count : Nat)
    (keyAllowed : Bool) : ∀ k ∈ candidateAt place count columns keyAllowed,
      k.reaches (place.position.after c) = true := by
  cases keyAllowed with
  | false => rintro _ ⟨⟩
  | true =>
    rintro _ ⟨⟩
    have size : c.utf8Size ≤ 1024 := (Char.utf8Size_le_four c).trans (by decide)
    rw [KeyCandidate.reaches, Position.after_inLine inLine]
    simpa using size

/-- Text before a colon is kept in mind as what may be a key. -/
theorem leads_name {text : String} (fits : fitsPlain text.toList = true) (some_ : text ≠ "")
    (short : (text.toList.map Char.utf8Size).sum ≤ 1024) (ends : endsWord rest = true)
    (open_ : ∀ d ∈ columns.head?, d ≤ p.column) :
    Leads (outside ⟨text.toList ++ ':' :: rest, p⟩ tokens columns none true)
      (outside ⟨':' :: rest, p.past text.toList⟩ (.scalar .plain text :: tokens) columns
        (candidateAt ⟨text.toList ++ ':' :: rest, p⟩ tokens.length columns true) false) := by
  obtain ⟨shown, _⟩ := of_fitsPlain fits
  have behind := Position.past_inLine (fun c member => isBreak_of_shown (shown c member)) p
  have inside : (p.past text.toList).column ≠ 0 := by
    have long := List.length_pos_of_ne_nil (show text.toList ≠ [] by simpa using some_)
    rw [behind]
    dsimp only
    omega
  have read : readPlainFrom false
      (outside ⟨text.toList ++ ':' :: rest, p⟩ tokens columns none true).level (':' :: rest)
      (p.past text.toList) text.toList.reverse .none =
        some ⟨text, ⟨':' :: rest, p.past text.toList⟩, false⟩ := by
    rw [readPlainFrom_colon ends inside, List.reverse_reverse, String.ofList_toList]
  have sign : ∀ c ∈ (':' :: rest).head?, c ≠ '-' ∧ c ≠ '.' := by
    rintro _ ⟨⟩
    decide
  have begins : Begins (':' :: rest) := by
    rintro _ ⟨⟩
    decide
  obtain ⟨c, later, here, longer, step⟩ := step_text fits some_ sign read
  apply Leads.single here step
  · have reached : KeyCandidate.reaches ⟨tokens.length, p, columns.head? = some p.column⟩
        (p.past text.toList) = true := by
      rw [behind, KeyCandidate.reaches, Bool.and_eq_true, decide_eq_true_eq, decide_eq_true_eq]
      exact ⟨rfl, Nat.add_le_add_left short _⟩
    have deeper : p.column ≤ (⟨':' :: rest, p.past text.toList⟩ : Place).column := by
      rw [Place.column, behind]
      exact Nat.le_add_right _ _
    rw [advance_outside (skipGap_begins begins false _ _), candidateAt, dropStale_reached reached,
      Option.map_some, shut_kept fun d first => (open_ d first).trans deeper]
  · exact longer

/-- A colon makes a key of what may be one. -/
theorem leads_colon (opens : Opens column .mappingStart columns tokens opened begun) (token : Token)
    {k : KeyCandidate} (count : k.count = tokens.length) (stands : k.position.column = column)
    (ends : endsWord rest = true) {place : Place} {keyAllowed : Bool}
    (gap : skipGap false rest (p.after ':') false false = (place, keyAllowed))
    (deep : column ≤ place.column) (shorter : place.rest.length ≤ rest.length) :
    Leads (outside ⟨':' :: rest, p⟩ (token :: tokens) columns (some k) false)
      (outside place (.value :: token :: .key :: begun) opened none keyAllowed) := by
  have step : (outside ⟨':' :: rest, p⟩ (token :: tokens) columns (some k) false).step ':' rest =
      some (outside ⟨rest, p.after ':'⟩ (.value :: token :: .key :: begun) opened none false) := by
    rw [step_colon ends, value_outside opens token count stands]
  apply Leads.single rfl step
  · rw [advance_outside gap, dropStale_none, Option.map_some, shut_kept]
    intro d first
    obtain ⟨_, rfl⟩ := opens.opened_eq
    cases first
    exact deep
  · exact shorter

theorem leads_key (opens : Opens column .mappingStart columns tokens opened begun)
    (stands : p.column = column) {text : String} (fits : fitsPlain text.toList = true)
    (some_ : text ≠ "") (short : (text.toList.map Char.utf8Size).sum ≤ 1024)
    (ends : endsWord rest = true) {place : Place} {keyAllowed : Bool}
    (gap : skipGap false rest ((p.past text.toList).after ':') false false = (place, keyAllowed))
    (deep : column ≤ place.column) (shorter : place.rest.length ≤ rest.length) :
    Leads (outside ⟨text.toList ++ ':' :: rest, p⟩ tokens columns none true)
      (outside place (.value :: .scalar .plain text :: .key :: begun) opened none keyAllowed) := by
  have open_ : ∀ d ∈ columns.head?, d ≤ p.column := fun d first =>
    (opens.head_le d first).trans_eq stands.symm
  apply (leads_name fits some_ short ends open_).trans
  exact leads_colon opens _ rfl stands ends gap deep shorter

end Signs

/-! ### Nodes of one line -/

section Lines

variable {d count : Nat} {columns : List Nat} {tokens : List Token} {keyAllowed : Bool}
  {p : Position} {line : List Char}

theorem leads_plain {text : String} (fits : fitsPlain text.toList = true) (some_ : text ≠ "")
    (deep : d < p.column) (within : count ≤ d) (begins : Begins line) :
    ∃ q : Position, q.column = count ∧
      Leads (outside ⟨text.toList ++ '\n' :: (blanks count ++ line), p⟩ tokens (d :: columns) none
          keyAllowed)
        (outside ⟨line, q⟩ (.scalar .plain text :: tokens) (d :: columns) none true).shut := by
  obtain ⟨column, later⟩ := (p.past text.toList).past_newLine count
  refine ⟨_, column, ?_⟩
  have read : readPlainFrom false (outside ⟨text.toList ++ '\n' :: (blanks count ++ line), p⟩ tokens
      (d :: columns) none keyAllowed).level ('\n' :: (blanks count ++ line)) (p.past text.toList)
      text.toList.reverse .none =
        some ⟨text, ⟨line, (p.past text.toList).past ('\n' :: blanks count)⟩, true⟩ := by
    have level : (outside ⟨text.toList ++ '\n' :: (blanks count ++ line), p⟩ tokens (d :: columns)
      none keyAllowed).level = d + 1 := rfl
    rw [level, readPlainFrom_newLine begins (Nat.lt_succ_of_le within), List.reverse_reverse,
      String.ofList_toList]
  have sign : ∀ c ∈ ('\n' :: (blanks count ++ line)).head?, c ≠ '-' ∧ c ≠ '.' := by
    rintro _ ⟨⟩
    decide
  obtain ⟨c, rest, here, longer, step⟩ := step_text fits some_ sign read
  apply leads_lineEnd here step (skipGap_begins begins false _ _)
  · exact candidateAt_passed deep ((p.line_le_past text.toList).trans_lt later) _ _
  · refine le_trans ?_ longer
    simp
    omega

theorem step_quote (s : Lexer) (rest : List Char) :
    s.step '\'' rest = s.text .quoted readQuoted := by
  rw [step, isMark_of_ne (by decide), isMark_of_ne (by decide)]
  simp

theorem leads_quoted {text : String} (shown : ∀ c ∈ text.toList, isShown c = true) (column : Nat)
    (deep : d < p.column) (begins : Begins line) :
    ∃ q : Position, q.column = count ∧
      Leads (outside ⟨writeSingle column text.toList ++ '\n' :: (blanks count ++ line), p⟩ tokens
          (d :: columns) none keyAllowed)
        (outside ⟨line, q⟩ (.scalar .quoted text :: tokens) (d :: columns) none true).shut := by
  let written := writeSingleFrom column false text.toList
  let tail := '\n' :: (blanks count ++ line)
  let behind := (p.after '\'').past written
  have single : tail.head? ≠ some '\'' := by
    rintro ⟨⟩
  have inside : (p.after '\'').column ≠ 0 := Nat.succ_ne_zero _
  have read : readQuoted ⟨'\'' :: (written ++ tail), p⟩ = some ⟨text, ⟨tail, behind⟩, false⟩ := by
    change readSingleFrom (written ++ tail) (p.after '\'') [] (.blanks []) = _
    rw [readSingleFrom_text shown single column inside, List.append_nil, List.append_nil,
      List.reverse_reverse, String.ofList_toList]
  have step : (outside ⟨'\'' :: (written ++ tail), p⟩ tokens (d :: columns) none keyAllowed).step
      '\'' (written ++ tail) = _ := (step_quote _ _).trans (text_outside read)
  obtain ⟨stands, later⟩ := behind.past_newLine count
  refine ⟨_, stands, ?_⟩
  apply leads_lineEnd rfl step (skipGap_newLine begins count behind false)
  · have first : p.line ≤ behind.line := p.line_le_past ('\'' :: written)
    exact candidateAt_passed deep (first.trans_lt later) _ _
  · simp only [tail, List.length_append, List.length_cons]
    omega

theorem step_brackets (s : Lexer) (rest : List Char) :
    s.step '[' rest = s.flowStart .flowSequenceStart ∧
      s.step ']' rest = s.flowEnd .flowSequenceEnd := by
  constructor <;>
  · rw [step, isMark_of_ne (by decide), isMark_of_ne (by decide)]
    simp

theorem step_braces (s : Lexer) (rest : List Char) :
    s.step '\x7b' rest = s.flowStart .flowMappingStart ∧
      s.step '\x7d' rest = s.flowEnd .flowMappingEnd := by
  constructor <;>
  · rw [step, isMark_of_ne (by decide), isMark_of_ne (by decide)]
    simp

/-- An empty collection is two signs, and the first may begin a key until the line ends. -/
theorem leads_empty {opening closing : Char} {start finish : Token}
    (opens : ∀ (s : Lexer) (rest : List Char), s.step opening rest = s.flowStart start)
    (closes : ∀ (s : Lexer) (rest : List Char), s.step closing rest = s.flowEnd finish)
    (inLine : isBreak opening = false)
    (sign : Begins (closing :: '\n' :: (blanks count ++ line)))
    (deep : d < p.column) (begins : Begins line) :
    ∃ q : Position, q.column = count ∧
      Leads (outside ⟨opening :: closing :: '\n' :: (blanks count ++ line), p⟩ tokens
          (d :: columns) none keyAllowed)
        (outside ⟨line, q⟩ (finish :: start :: tokens) (d :: columns) none true).shut := by
  let tail := '\n' :: (blanks count ++ line)
  let behind := (p.after opening).after closing
  let candidate := candidateAt ⟨opening :: closing :: tail, p⟩ tokens.length
    (d :: columns) keyAllowed
  let inner : Lexer := ⟨⟨closing :: tail, p.after opening⟩, start :: tokens, tokens.length + 1,
    d :: columns, none, [candidate], true⟩
  have first : (outside ⟨opening :: closing :: tail, p⟩ tokens (d :: columns) none
      keyAllowed).step opening (closing :: tail) = some inner := by
    rw [opens]
    cases keyAllowed <;> rfl
  have reached : ∀ k ∈ candidate, k.reaches (p.after opening) = true :=
    candidateAt_reaches inLine tokens.length keyAllowed
  have stays : inner.advance = some inner := by
    simp only [advance, inner, inFlow, List.isEmpty_cons, Bool.not_false, tail,
      skipGap_begins sign true]
    rcases same : candidate with _ | k
    · rfl
    · have reached := reached k same
      simp only [dropStale, List.any_cons, List.any_nil, Option.any_some, Option.any_none, reached,
        Bool.not_true, Bool.false_and, Bool.false_or, Bool.false_eq_true, if_false, Option.map_some,
        List.map_cons, List.map_nil, Option.filter_some, Option.filter_none, Bool.not_false,
          if_true]
      rfl
  have second : inner.step closing tail =
      some (outside ⟨tail, behind⟩ (finish :: start :: tokens) (d :: columns) candidate false) := by
    rw [closes]
    rfl
  obtain ⟨column, later⟩ := behind.past_newLine count
  refine ⟨_, column, ?_⟩
  apply Leads.round rfl first stays le_rfl
  apply leads_lineEnd rfl second (skipGap_newLine begins count behind false)
  · have first : p.line ≤ behind.line := p.line_le_past [opening, closing]
    exact candidateAt_passed deep (first.trans_lt later) _ _
  · simp only [tail, List.length_append, List.length_cons]
    omega

end Lines

end Lexer
end WindowFold.Yaml
