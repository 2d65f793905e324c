import Mathlib.Data.List.Induction
import Spore.Lib.Run

/-!
# Continuation lines (`userland/bin/msh/input.c`, `userland/bin/msh/lexer.c`)

`line_needs_more` reads quotes and backslashes with a scanner of its own. The lexer takes a
backslash in single quotes for a character, and knows comments and `${}`; the scanner does not.
Both are automata over the characters of the line. They run in step up to the first character that
only one of them gives a meaning to, and there their answers differ.
-/

namespace Spore.Msh

open Spore.Lib

/-! ## The lexer -/

/-- Where `sh_tokenize` is in a line. -/
inductive Place where
  | boundary
  | word
  | single
  | double
  /-- After a `#` at a word boundary, where it stops. -/
  | comment
  deriving DecidableEq

/-- What the characters before make of the next one. -/
inductive Mode where
  | plain
  /-- After a backslash. -/
  | escape
  /-- After a dollar sign. -/
  | dollar
  /-- In `${`, after so many characters of the name (`read_variable`). -/
  | brace (name : Nat)
  deriving DecidableEq

/-- The lexer: where it is, and how it reads characters. -/
structure Lexer where
  /-- Where it is. -/
  place : Place
  /-- How it reads the next character. -/
  mode : Mode
  deriving DecidableEq

/-- What ends a word. -/
def isBreak (c : Char) : Bool := " \t\n\r;&|<>".toList.contains c

/-- The mode that a character of a word or of double quotes leaves. -/
def Mode.after (c : Char) : Mode :=
  if c = '\\' then .escape else if c = '$' then .dollar else .plain

/-- A character that is not part of an escape or of a variable in braces. -/
def Place.read (place : Place) (c : Char) : Lexer :=
  match place with
  | .comment => ⟨.comment, .plain⟩
  | .single => ⟨if c = '\'' then .word else .single, .plain⟩
  | .double => if c = '"' then ⟨.word, .plain⟩ else ⟨.double, .after c⟩
  | place =>
    if place = .boundary ∧ c = '#' then ⟨.comment, .plain⟩
    else if isBreak c then ⟨.boundary, .plain⟩
    else if c = '\'' then ⟨.single, .plain⟩
    else if c = '"' then ⟨.double, .plain⟩
    else ⟨.word, .after c⟩

/-- Whether a character belongs to an escape or to a variable in braces. A name has at most 63
characters; a variable without braces is made of characters that are passed over one by one. -/
def Mode.takes : Mode → Char → Bool
  | .plain, _ => false
  | .escape, _ => true
  | .dollar, c => c == '{'
  | .brace name, c => c == '}' || decide (name < 63)

/-- The mode after a character that was taken. -/
def Mode.next : Mode → Char → Mode
  | .dollar, _ => .brace 0
  | .brace name, c => if c = '}' then .plain else .brace (name + 1)
  | _, _ => .plain

/-- `sh_tokenize`, one character. -/
def Lexer.step (lex : Lexer) (c : Char) : Lexer :=
  if lex.mode.takes c then ⟨lex.place, lex.mode.next c⟩ else lex.place.read c

/-- The lexer is in an open quote, or on a backslash that escapes nothing. -/
def Lexer.unfinished (lex : Lexer) : Bool :=
  lex.place = .single || lex.place = .double || lex.mode = .escape

/-- The scan of a line with the rules of `sh_tokenize`. -/
def scan (line : List Char) : Lexer := line.foldl .step ⟨.boundary, .plain⟩

/-! ## The scanner of the line editor -/

/-- The loop of `line_needs_more`. -/
def openQuote : (single dbl : Bool) → Nat → List Char → Bool
  | single, dbl, _, [] => single || dbl
  | single, dbl, skip + 1, _ :: rest => openQuote single dbl skip rest
  | single, dbl, 0, c :: rest =>
    if c = '\\' ∧ rest ≠ [] then openQuote single dbl 1 rest
    else if c = '\'' ∧ dbl = false then openQuote (!single) dbl 0 rest
    else if c = '"' ∧ single = false then openQuote single (!dbl) 0 rest
    else openQuote single dbl 0 rest

/-- The count of `line_has_trailing_backslash`. -/
def slashes (line : List Char) : Nat := (line.reverse.takeWhile (· = '\\')).length

/-- A quote is open, or the last backslash escapes the newline. -/
def lineNeedsMore (line : List Char) : Bool := openQuote false false 0 line || slashes line % 2 = 1

/-- The same as an automaton: the quotes that are open, whether the next character is passed over,
and whether an odd number of backslashes has just been read. -/
structure Quotes where
  /-- In single quotes. -/
  single : Bool
  /-- In double quotes. -/
  dbl : Bool
  /-- After a backslash. -/
  escaped : Bool
  /-- After an odd number of them. -/
  odd : Bool

/-- The answer of `line_needs_more`. -/
def Quotes.wants (q : Quotes) : Bool := q.single || q.dbl || q.odd

/-- One character of the scan. -/
def Quotes.step (q : Quotes) (c : Char) : Quotes where
  single := if !q.escaped && c == '\'' && !q.dbl then !q.single else q.single
  dbl := if !q.escaped && c == '"' && !q.single then !q.dbl else q.dbl
  escaped := !q.escaped && c == '\\'
  odd := c == '\\' && !q.odd

/-- The quotes at the end of the loop. -/
theorem openQuote_eq (line : List Char) : ∀ (q : Quotes),
    openQuote q.single q.dbl q.escaped.toNat line =
      ((line.foldl .step q).single || (line.foldl .step q).dbl) := by
  induction line with
  | nil => intro q; cases q.escaped <;> rfl
  | cons c rest ih =>
    intro q
    rw [List.foldl_cons, ← ih]
    obtain ⟨single, dbl, escaped, odd⟩ := q
    cases escaped with
    | true => simp [openQuote, Quotes.step]
    | false =>
      by_cases slash : c = '\\'
      · cases rest <;> simp [openQuote, Quotes.step, slash]
      · by_cases quote : c = '\''
        · cases dbl <;> cases single <;> simp [openQuote, Quotes.step, quote]
        · by_cases dquote : c = '"'
          · cases dbl <;> cases single <;> simp [openQuote, Quotes.step, dquote]
          · have other : (c == '\\') = false := beq_false_of_ne slash
            simp [openQuote, Quotes.step, slash, quote, dquote, other]

/-- The backslashes at the end of the line. -/
theorem slashes_odd (line : List Char) :
    decide (slashes line % 2 = 1) = (line.foldl .step (Quotes.mk false false false false)).odd := by
  induction line using List.reverseRecOn with
  | nil => rfl
  | append_singleton line c ih =>
    rw [List.foldl_append]
    have counted : slashes (line ++ [c]) = if c = '\\' then slashes line + 1 else 0 := by
      unfold slashes
      rw [List.reverse_append, List.reverse_singleton, List.singleton_append, List.takeWhile_cons]
      split <;> simp_all
    rw [counted]
    by_cases slash : c = '\\'
    · simp only [slash, ↓reduceIte, List.foldl_cons, List.foldl_nil, Quotes.step, ← ih]
      grind
    · simp [slash, Quotes.step]

/-- The automaton gives the answer of `line_needs_more`. -/
theorem lineNeedsMore_eq (line : List Char) :
    lineNeedsMore line = (line.foldl .step (Quotes.mk false false false false)).wants := by
  unfold lineNeedsMore Quotes.wants
  rw [slashes_odd]
  exact congrArg (· || _) (openQuote_eq line ⟨false, false, false, false⟩)

/-! ## Both at once -/

/-- A quote or a backslash. -/
def isQuoting (c : Char) : Bool := c == '\'' || c == '"' || c == '\\'

/-- The two automata on one line. -/
structure Both where
  /-- The lexer. -/
  lex : Lexer
  /-- The scan. -/
  quotes : Quotes

namespace Both

/-- Both at the start of a line. -/
def start : Both := ⟨⟨.boundary, .plain⟩, ⟨false, false, false, false⟩⟩

/-- Both on one character. -/
def step (both : Both) (c : Char) : Both := ⟨both.lex.step c, both.quotes.step c⟩

/-- Each reads the line by itself. -/
theorem foldl_step (line : List Char) : ∀ both : Both, line.foldl step both =
    ⟨line.foldl .step both.lex, line.foldl .step both.quotes⟩ := by
  induction line with
  | nil => exact fun _ => rfl
  | cons c rest ih => exact fun both => ih (both.step c)

/-- The answers are the same. -/
def Agree (both : Both) : Prop := both.quotes.wants = both.lex.unfinished

/-- The character means the same to both scanners: a comment and a variable in braces outside of
quotes have no quote and no backslash; a single quote that closes has no backslash before it to
escape it; a double quote is escaped for both or for neither. -/
def Harmless (both : Both) (c : Char) : Prop :=
  match both.lex.place with
  | .comment => isQuoting c = false
  | .single => c = '\'' → both.quotes.escaped = false
  | .double => c = '"' → both.quotes.escaped = both.lex.mode.takes c
  | _ => both.lex.mode ≠ .escape → both.lex.mode.takes c → isQuoting c = false

/-- The scanners are in step. -/
structure InStep (both : Both) : Prop where
  /-- Both see single quotes. -/
  single : both.quotes.single = decide (both.lex.place = .single)
  /-- Both see double quotes. -/
  dbl : both.quotes.dbl = decide (both.lex.place = .double)
  /-- Outside of quotes both escape the same characters. -/
  escaped : both.lex.place ≠ .single → both.lex.place ≠ .double →
    both.quotes.escaped = decide (both.lex.mode = .escape)
  /-- Both see the backslash at the end. -/
  odd : both.lex.place ≠ .single → both.lex.place ≠ .double →
    both.quotes.odd = both.quotes.escaped
  /-- Modes are for words and double quotes. -/
  plain : both.lex.place ≠ .word → both.lex.place ≠ .double → both.lex.mode = .plain

/-- No quote and no backslash ends a word. -/
theorem isBreak_quoting : isBreak '\'' = false ∧ isBreak '"' = false ∧ isBreak '\\' = false := by
  decide

/-- Scanners that are in step give the same answer. -/
theorem InStep.agree {both : Both} (inStep : both.InStep) : both.Agree := by
  obtain ⟨⟨place, mode⟩, ⟨single, dbl, escaped, odd⟩⟩ := both
  obtain ⟨single_eq, dbl_eq, escaped_eq, odd_eq, plain⟩ := inStep
  simp only [Agree, Quotes.wants, Lexer.unfinished] at *
  cases place <;> simp_all

/-- From there the answers differ at the first character that is not harmless. -/
theorem InStep.agree_iff {both : Both} (inStep : both.InStep) (c : Char) :
    (both.step c).Agree ↔ both.Harmless c := by
  obtain ⟨⟨place, mode⟩, ⟨single, dbl, escaped, odd⟩⟩ := both
  obtain ⟨single_eq, dbl_eq, escaped_eq, odd_eq, plain⟩ := inStep
  have breaks := isBreak_quoting
  simp only [Agree, Both.step, Quotes.wants, Lexer.unfinished, Harmless, Lexer.step,
    Quotes.step] at *
  cases place with
  | boundary => grind [Mode.takes, Place.read, isQuoting, Mode.after]
  | word =>
    -- A quote or a backslash means something to the lexer unless a variable takes it.
    cases mode <;> grind [Mode.takes, Mode.next, Place.read, isQuoting, Mode.after]
  | single => grind [Mode.takes, Place.read]
  | double => grind [Mode.takes, Mode.next, Place.read, Mode.after]
  | comment => grind [Mode.takes, Place.read, isQuoting]

/-- Harmless characters keep the scanners in step. -/
theorem InStep.step {both : Both} (inStep : both.InStep) {c : Char} (harmless : both.Harmless c) :
    (both.step c).InStep := by
  obtain ⟨⟨place, mode⟩, ⟨single, dbl, escaped, odd⟩⟩ := both
  obtain ⟨single_eq, dbl_eq, escaped_eq, odd_eq, plain⟩ := inStep
  have breaks := isBreak_quoting
  simp only [Both.step, Harmless, Lexer.step, Quotes.step] at *
  cases place with
  | boundary => constructor <;> grind [Mode.takes, Place.read, Mode.after]
  | word =>
    cases mode <;> constructor <;>
      grind [Mode.takes, Mode.next, Place.read, isQuoting, Mode.after]
  | single => constructor <;> grind [Mode.takes, Place.read]
  | double => constructor <;> grind [Mode.takes, Mode.next, Place.read, Mode.after]
  | comment => constructor <;> grind [Mode.takes, Place.read, isQuoting]

end Both

end Spore.Msh
