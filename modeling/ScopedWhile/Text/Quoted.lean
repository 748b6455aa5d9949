import ScopedWhile.Text.Printable

/-!
Quoted text. A text is quoted with apostrophes unless it holds one and no double quote, and what
would not show is escaped, so that a quoted text shows as a whole.
-/

namespace ScopedWhile.Text

def apostrophe : Char := '\x27'

def doubleQuote : Char := '\x22'

/-- The mark that a text is quoted with. -/
def quoteMark (holds : Char → Bool) : Char :=
  if holds apostrophe && !holds doubleQuote then doubleQuote else apostrophe

private def hexDigits (width n : Nat) : List Char :=
  let digits := Nat.toDigits 16 n
  List.replicate (width - digits.length) '0' ++ digits

/-- The escapes that quoted text and quoted bytes share. -/
def escapeCommon? (mark c : Char) : Option (List Char) :=
  if c = mark ∨ c = '\\' then some ['\\', c]
  else if c = '\n' then some ['\\', 'n']
  else if c = '\r' then some ['\\', 'r']
  else if c = '\t' then some ['\\', 't']
  else none

/-- The escape of a character by its code, with two, four or eight digits. -/
def escapeCode (code : Nat) : List Char :=
  if code < 0x100 then '\\' :: 'x' :: hexDigits 2 code
  else if code < 0x10000 then '\\' :: 'u' :: hexDigits 4 code
  else '\\' :: 'U' :: hexDigits 8 code

def escape (mark c : Char) : List Char :=
  (escapeCommon? mark c).getD (if isPrintable c then [c] else escapeCode c.toNat)

def quote (text : String) : String :=
  let chars := text.toList
  let mark := quoteMark chars.contains
  String.ofList (mark :: chars.flatMap (escape mark) ++ [mark])

/-- Bytes are quoted as ASCII text; every other byte is escaped by code. -/
def quoteBytes (content : List UInt8) : String :=
  let chars := content.map fun b => Char.ofNat b.toNat
  let mark := quoteMark chars.contains
  let one (c : Char) : List Char :=
    (escapeCommon? mark c).getD <|
      if c.toNat < 0x20 ∨ 0x7f ≤ c.toNat then escapeCode c.toNat else [c]
  String.ofList ('b' :: mark :: chars.flatMap one ++ [mark])

-----------------------------------------------------------------------------------------
-- Quoted text shows
-----------------------------------------------------------------------------------------

theorem isPrintable_digitChar
    : ∀ n < 16, isPrintable n.digitChar = true := by
  decide +kernel

theorem isPrintable_toDigits (n : Nat)
    : ∀ c ∈ Nat.toDigits 16 n, isPrintable c = true := by
  induction n using Nat.strongRecOn with
  | ind n ih =>
      rw [Nat.toDigits_eq_if (by decide)]
      split
      next small =>
        rw [List.forall_mem_singleton]
        exact isPrintable_digitChar n small
      next large =>
        rw [List.forall_mem_append, List.forall_mem_singleton]
        exact ⟨ih (n / 16) (by omega), isPrintable_digitChar (n % 16) (by omega)⟩

/-- A character code is written with characters that print as themselves. -/
theorem isPrintable_escapeCode (code : Nat)
    : ∀ c ∈ escapeCode code, isPrintable c = true := by
  have digits (width : Nat) : ∀ c ∈ hexDigits width code, isPrintable c = true := by
    rw [hexDigits, List.forall_mem_append]
    refine ⟨fun c member => ?_, isPrintable_toDigits code⟩
    rw [List.eq_of_mem_replicate member]
    decide
  unfold escapeCode
  repeat' split
  all_goals
    rw [List.forall_mem_cons, List.forall_mem_cons]
    exact ⟨by decide, by decide, digits _⟩

theorem isPrintable_quoteMark (holds : Char → Bool)
    : isPrintable (quoteMark holds) = true := by
  unfold quoteMark
  split <;> decide

theorem isPrintable_pair {a b : Char} (first : isPrintable a = true) (second : isPrintable b = true)
    : ∀ c ∈ [a, b], isPrintable c = true :=
  List.forall_mem_cons.mpr ⟨first, List.forall_mem_singleton.mpr second⟩

/-- A common character is escaped with characters that print as themselves. -/
theorem isPrintable_escapeCommon? {mark c : Char} (shows : isPrintable mark = true)
    {escaped : List Char} (common : escapeCommon? mark c = some escaped)
    : ∀ d ∈ escaped, isPrintable d = true := by
  unfold escapeCommon? at common
  split at common
  next special =>
    cases common
    rcases special with rfl | rfl
    · exact isPrintable_pair (by decide) shows
    · exact isPrintable_pair (by decide) (by decide)
  next =>
    -- What is left are the line feed, the carriage return, the tab and no escape at all.
    iterate 3
      split at common
      next =>
        cases common
        exact isPrintable_pair (by decide) (by decide)
    cases common

/-- Every character is escaped with characters that print as themselves. -/
theorem isPrintable_escape {mark : Char} (shows : isPrintable mark = true) (c : Char)
    : ∀ d ∈ escape mark c, isPrintable d = true := by
  unfold escape
  cases common : escapeCommon? mark c with
  | some escaped => exact isPrintable_escapeCommon? shows common
  | none =>
      rw [Option.getD_none]
      split
      next visible => simpa using visible
      next => exact isPrintable_escapeCode c.toNat

/-- Every character of a quoted text shows, whatever the text holds. -/
theorem isPrintable_quote (text : String)
    : ∀ c ∈ (quote text).toList, isPrintable c = true := by
  have shows := isPrintable_quoteMark text.toList.contains
  intro c member
  simp only [quote, String.toList_ofList, List.mem_append, List.mem_cons, List.mem_flatMap,
    List.not_mem_nil, or_false] at member
  rcases member with (rfl | ⟨inner, -, escaped⟩) | rfl
  · exact shows
  · exact isPrintable_escape shows inner c escaped
  · exact shows

example
    : quote (String.ofList [.ofNat 0x200b, .ofNat 0x3000, .ofNat 0xe0001])
      = "'\\u200b\\u3000\\U000e0001'" := by
  decide +kernel

end ScopedWhile.Text
