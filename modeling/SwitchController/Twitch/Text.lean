import Mathlib.Data.List.DropRight
import Mathlib.Data.List.Infix

/-!
# Text

`twitch-control.py` works on strings: the chat comes in as text, the state of a remote
controller is text, and what goes to the serial port is text again. A Python string is the
list of its characters here, and the methods the program calls are functions on such lists.

Which characters are blanks, letters or digits, and what the lower case of a text is, is the
business of Python's tables. They are a parameter, `SwitchController.Twitch.Unicode`, of
which no more is known than what holds of ASCII.
-/

namespace SwitchController

namespace Twitch

/-- A Python string. -/
abbrev Str := List Char

instance : Coe String Str := ⟨String.toList⟩

instance : LawfulBEq Str := inferInstance

/-- A digit of ASCII. -/
def asciiDigit (c : Char) : Option (Fin 10) :=
  if h : 48 ≤ c.toNat ∧ c.toNat < 58 then some ⟨c.toNat - 48, by omega⟩ else none

/-- A blank of ASCII: the tab and what is up to the carriage return, the four separators, and
the blank itself. -/
def asciiSpace (c : Char) : Bool :=
  (9 ≤ c.toNat && c.toNat ≤ 13) || (28 ≤ c.toNat && c.toNat ≤ 32)

/-- A character of a word in ASCII. -/
def asciiWord (c : Char) : Bool := c.isAlphanum || c == '_'

/-- **The tables of Python.** -/
structure Unicode where
  /-- `str.lower`. -/
  lower : Str → Str
  /-- `str.isspace`, of one character. -/
  space : Char → Bool
  /-- `\w` of a regular expression. -/
  word : Char → Bool
  /-- The value of a decimal digit, in any script. -/
  digit : Char → Option (Fin 10)
  lower_ascii : ∀ s : Str, (∀ c ∈ s, c.toNat < 128) → lower s = s.map Char.toLower
  space_ascii : ∀ c : Char, c.toNat < 128 → space c = asciiSpace c
  word_ascii : ∀ c : Char, c.toNat < 128 → word c = asciiWord c
  digit_ascii : ∀ c : Char, c.toNat < 128 → digit c = asciiDigit c
  /-- No blank is part of a word. -/
  word_of_space : ∀ c, space c = true → word c = false

/-! ### The methods of `str` -/

/-- `pattern in s`. -/
def isIn (pattern s : Str) : Bool := decide (pattern <:+: s)

/-- `s.replace(c, "")`. -/
def remove (c : Char) (s : Str) : Str := s.filter (· ≠ c)

/-- `str(n)`. -/
def natStr (n : ℕ) : Str := Nat.toDigits 10 n

/-- `str(n)` of an integer. -/
def intStr (n : ℤ) : Str := if n < 0 then '-' :: natStr n.natAbs else natStr n.natAbs

namespace Unicode

variable (U : Unicode)

/-- `s.strip()`. -/
def strip (s : Str) : Str := (s.dropWhile U.space).rdropWhile U.space

/-- `s.split()`. -/
def split (s : Str) : List Str := (s.splitOnP U.space).filter (· ≠ [])

/-- `[x.strip() for x in s.split(sep)]`. -/
def splitStrip (sep : Char) (s : Str) : List Str := (s.splitOn sep).map U.strip

/-- The digits of a number, once one of them has been read: underscores may stand between
two. -/
def digitsFrom (value : ℕ) : Str → Option ℕ
  | [] => some value
  | '_' :: c :: cs => do digitsFrom (10 * value + (← U.digit c)) cs
  | c :: cs => do digitsFrom (10 * value + (← U.digit c)) cs

/-- The digits of a number. -/
def natural : Str → Option ℕ
  | [] => none
  | c :: cs => do U.digitsFrom (← U.digit c) cs

/-- **`int(s)`**, where it does not raise. -/
def int (s : Str) : Option ℤ :=
  match U.strip s with
  | '-' :: cs => (U.natural cs).map fun n => -(n : ℤ)
  | '+' :: cs => (U.natural cs).map fun n => (n : ℤ)
  | cs => (U.natural cs).map fun n => (n : ℤ)

/-- ASCII, and nothing else. -/
def ascii : Unicode where
  lower := fun s => s.map Char.toLower
  space := asciiSpace
  word := asciiWord
  digit := asciiDigit
  lower_ascii := fun _ _ => rfl
  space_ascii := fun _ _ => rfl
  word_ascii := fun _ _ => rfl
  digit_ascii := fun _ _ => rfl
  word_of_space := by
    -- a blank is one of the first 33 characters
    have hall : ∀ n < 33, asciiWord (Char.ofNat n) = false := by decide +kernel
    intro c hc
    have hlt : c.toNat < 33 := by
      simp only [asciiSpace, Bool.or_eq_true, Bool.and_eq_true, decide_eq_true_eq] at hc
      omega
    rw [← Char.ofNat_toNat c]
    exact hall _ hlt

/-- `strip` of a text in ASCII. -/
theorem strip_ascii {s : Str} (h : ∀ c ∈ s, c.toNat < 128) : U.strip s = ascii.strip s := by
  have hdrop : ∀ l : Str, (∀ c ∈ l, c.toNat < 128) →
      l.dropWhile U.space = l.dropWhile asciiSpace := by
    intro l
    induction l with
    | nil => exact fun _ => rfl
    | cons c l ih =>
      intro hl
      obtain ⟨hc, hl⟩ := List.forall_mem_cons.mp hl
      rw [List.dropWhile_cons, List.dropWhile_cons, U.space_ascii c hc, ih hl]
  have hback : ∀ c ∈ (s.dropWhile asciiSpace).reverse, c.toNat < 128 := fun c hc =>
    h c ((List.dropWhile_sublist _).subset (List.mem_reverse.mp hc))
  rw [strip, hdrop s h, List.rdropWhile, hdrop _ hback]
  rfl

theorem infix_strip (s : Str) : U.strip s <:+: s :=
  (List.rdropWhile_prefix U.space _).isInfix.trans (List.dropWhile_suffix U.space).isInfix

end Unicode

/-! ### Words and numbers -/

/-- Decimal digits as a text. -/
def digitText (ds : List (Fin 10)) : Str := ds.map fun d : Fin 10 => Nat.digitChar d

/-- The number they stand for, with what has been read before them. -/
def decimalFrom (value : ℕ) (ds : List (Fin 10)) : ℕ :=
  ds.foldl (fun value d => 10 * value + d.val) value

theorem digitChar_ascii : ∀ d : Fin 10, (Nat.digitChar d).toNat < 128 ∧
    asciiDigit (Nat.digitChar d) = some d ∧ asciiSpace (Nat.digitChar d) = false ∧
    Nat.digitChar d ≠ '_' ∧ Nat.digitChar d ≠ '-' ∧ Nat.digitChar d ≠ '+' := by decide

namespace Unicode

variable (U : Unicode)

theorem digit_digitChar (d : Fin 10) : U.digit (Nat.digitChar d) = some d := by
  obtain ⟨hascii, hdigit, -⟩ := digitChar_ascii d
  rw [U.digit_ascii _ hascii, hdigit]

theorem space_digitChar (d : Fin 10) : U.space (Nat.digitChar d) = false := by
  obtain ⟨hascii, -, hspace, -⟩ := digitChar_ascii d
  rw [U.space_ascii _ hascii, hspace]

theorem strip_of_forall {s : Str} (h : ∀ c ∈ s, U.space c = false) : U.strip s = s := by
  have hdrop : ∀ l : Str, (∀ c ∈ l, U.space c = false) → l.dropWhile U.space = l := by
    rintro (- | ⟨c, l⟩) hl
    · rfl
    · rw [List.dropWhile_cons, hl c List.mem_cons_self]
      rfl
  rw [strip, hdrop s h, List.rdropWhile, hdrop _ (by simpa using h), List.reverse_reverse]

/-- **`strip` takes blanks off** on both sides. -/
theorem strip_append {before after : Str} (hbefore : ∀ c ∈ before, U.space c = true)
    (hafter : ∀ c ∈ after, U.space c = true) (s : Str) :
    U.strip (before ++ s ++ after) = U.strip s := by
  rw [strip, strip, List.append_assoc, List.dropWhile_append_of_pos hbefore, List.dropWhile_append]
  split
  · rename_i hempty
    rw [List.isEmpty_iff.mp hempty, List.dropWhile_eq_nil_iff.mpr hafter]
  · rw [List.rdropWhile, List.reverse_append, List.dropWhile_append_of_pos (by simpa using hafter)]
    rfl

theorem digitsFrom_digitText (value : ℕ) (ds : List (Fin 10)) :
    U.digitsFrom value (digitText ds) = some (decimalFrom value ds) := by
  induction ds generalizing value with
  | nil => rfl
  | cons d ds ih =>
    obtain ⟨-, -, -, hunderscore, -⟩ := digitChar_ascii d
    have hcons : U.digitsFrom value (digitText (d :: ds)) =
        U.digitsFrom (10 * value + d) (digitText ds) := by
      simp [digitText, digitsFrom, hunderscore, digit_digitChar]
    rw [hcons, ih]
    rfl

/-- **`int` of decimal digits.** -/
theorem int_digitText {ds : List (Fin 10)} (h : ds ≠ []) :
    U.int (digitText ds) = some (decimalFrom 0 ds : ℤ) := by
  obtain ⟨d, ds, rfl⟩ := List.exists_cons_of_ne_nil h
  obtain ⟨-, -, -, -, hminus, hplus⟩ := digitChar_ascii d
  have hstrip : U.strip (digitText (d :: ds)) = digitText (d :: ds) :=
    U.strip_of_forall (List.forall_mem_map.mpr fun d _ => U.space_digitChar d)
  have hnat : U.natural (digitText (d :: ds)) = some (decimalFrom 0 (d :: ds)) := by
    rw [digitText, List.map_cons, natural, digit_digitChar]
    exact (U.digitsFrom_digitText d ds).trans (by simp [decimalFrom])
  rw [int, hstrip]
  split
  · rename_i cs heq
    exact absurd (List.cons.inj heq).1 hminus
  · rename_i cs heq
    exact absurd (List.cons.inj heq).1 hplus
  · rw [hnat]
    rfl

/-- **`split` of words with a blank between them.** -/
theorem split_words {word : Str} {words : List Str}
    (h : ∀ w ∈ word :: words, w ≠ [] ∧ ∀ c ∈ w, U.space c = false) :
    U.split (word ++ words.flatMap (' ' :: ·)) = word :: words := by
  have hblank : U.space ' ' = true := U.space_ascii ' ' (by decide)
  have hsplit : ∀ words : List Str, ∀ word, (∀ w ∈ word :: words, ∀ c ∈ w, U.space c = false) →
      (word ++ words.flatMap (' ' :: ·)).splitOnP U.space = word :: words := by
    intro words
    induction words with
    | nil =>
      intro word hw
      rw [List.flatMap_nil, List.append_nil]
      exact List.splitOnP_eq_singleton (hw word List.mem_cons_self)
    | cons w words ih =>
      intro word hw
      obtain ⟨hword, hwords⟩ := List.forall_mem_cons.mp hw
      rw [List.flatMap_cons, List.cons_append,
        List.splitOnP_append_cons_of_forall_mem hword ' ' hblank, ih w hwords]
  rw [split, hsplit words word fun w hw => (h w hw).2]
  exact List.filter_eq_self.mpr fun w hw => decide_eq_true (h w hw).1

end Unicode

/-- The pieces of a text are in it, and the first at its start. -/
theorem isInfix_splitOnP (p : Char → Bool) (s : Str) :
    (∀ piece ∈ (s.splitOnP p).head?, piece <+: s) ∧ ∀ piece ∈ s.splitOnP p, piece <:+: s := by
  induction s with
  | nil => simp
  | cons c s ih =>
    obtain ⟨hhead, hall⟩ := ih
    have hlater : ∀ piece ∈ s.splitOnP p, piece <:+: c :: s := fun piece hpiece =>
      (hall piece hpiece).trans (List.suffix_cons c s).isInfix
    rw [List.splitOnP_cons_eq_if_modifyHead]
    split
    · refine ⟨by simp, List.forall_mem_cons.mpr ⟨List.nil_infix, hlater⟩⟩
    · -- the character joins the first piece
      rcases hpieces : s.splitOnP p with - | ⟨piece, pieces⟩
      · simp
      · rw [hpieces] at hhead hlater
        have hfirst : c :: piece <+: c :: s := List.cons_prefix_cons.mpr ⟨rfl, hhead piece rfl⟩
        refine ⟨by simpa using hhead piece rfl, ?_⟩
        exact List.forall_mem_cons.mpr ⟨hfirst.isInfix, (List.forall_mem_cons.mp hlater).2⟩

theorem isInfix_of_mem_splitStrip {U : Unicode} {sep : Char} {s word : Str}
    (h : word ∈ U.splitStrip sep s) : word <:+: s := by
  obtain ⟨piece, hpiece, rfl⟩ := List.mem_map.mp h
  exact (U.infix_strip piece).trans ((isInfix_splitOnP _ s).2 piece hpiece)

end Twitch

end SwitchController
