import TaskAccess.Decimal.Notation
import TaskAccess.Settings.Tree
import TaskAccess.Text.Blank

/-!
# Scalars of configuration files

The texts, numbers, truth values and dates of the TOML format, version 1.1.  Texts
are read up to their closing quotes; all other scalars are words that end with a
blank, a line end or a mark of punctuation.

## Main definitions

* `Toml.quoted?` — a text in quotes of any kind.
* `Toml.word?` — any other scalar.
-/

namespace TaskAccess.Toml

open Text

/-- The character may stand in texts and comments: no control character but the tab. -/
def isPrintable (c : Char) : Bool := c == '\t' || (c.toNat ≥ 0x20 && c.toNat != 0x7f)

/-- A space or a tab. -/
def isSpace (c : Char) : Bool := c == ' ' || c == '\t'

/-- The rest behind spaces and tabs. -/
def skipSpace (s : List Char) : List Char := s.dropWhile isSpace

/-- The rest behind a line end. -/
def newline? : List Char → Option (List Char)
  | '\n' :: rest => some rest
  | '\r' :: '\n' :: rest => some rest
  | _ => none

/-! ### Texts -/

/-- The character with a code point. -/
def codePoint? (digits : List Char) : Option Char := do
  let n ← readNat? 16 digits
  if n.isValidChar then some (Char.ofNat n) else none

/-- The character that a letter stands for behind a backslash. -/
def escape? : Char → Option Char
  | 'b' => some '\x08'
  | 'e' => some '\x1b'
  | 't' => some '\t'
  | 'n' => some '\n'
  | 'f' => some '\x0c'
  | 'r' => some '\r'
  | '"' => some '"'
  | '\\' => some '\\'
  | _ => none

/-- The text with a character in front. -/
def cons? (c : Option Char) (more : Option (List Char × List Char)) :
    Option (List Char × List Char) := do
  let (text, rest) ← more
  return ((← c) :: text, rest)

/-- The rest of a text in double quotes on one line. -/
def basic? : List Char → Option (List Char × List Char)
  | [] => none
  | '"' :: rest => some ([], rest)
  | '\\' :: 'x' :: a :: b :: rest => cons? (codePoint? [a, b]) (basic? rest)
  | '\\' :: 'u' :: a :: b :: c :: d :: rest => cons? (codePoint? [a, b, c, d]) (basic? rest)
  | '\\' :: 'U' :: a :: b :: c :: d :: e :: f :: g :: h :: rest =>
    cons? (codePoint? [a, b, c, d, e, f, g, h]) (basic? rest)
  | '\\' :: c :: rest => cons? (escape? c) (basic? rest)
  | c :: rest => if isPrintable c && c != '\\' then cons? (some c) (basic? rest) else none

/-- The rest of a text in single quotes on one line. -/
def literal? : List Char → Option (List Char × List Char)
  | [] => none
  | '\'' :: rest => some ([], rest)
  | c :: rest => if isPrintable c then cons? (some c) (literal? rest) else none

/-- The backslash in front of this text stands at the end of a line. -/
def continuesLine (s : List Char) : Bool := (newline? (skipSpace s)).isSome

/-- The rest of a text in three double quotes.  Behind a backslash at the end of a
line, blanks are skipped. -/
def multilineBasic? : (skipping : Bool) → List Char → Option (List Char × List Char)
  | _, [] => none
  | _, '"' :: '"' :: '"' :: '"' :: '"' :: rest => some (['"', '"'], rest)
  | _, '"' :: '"' :: '"' :: '"' :: rest => some (['"'], rest)
  | _, '"' :: '"' :: '"' :: rest => some ([], rest)
  | skipping, '\r' :: '\n' :: rest =>
    if skipping then multilineBasic? true rest
    else cons? (some '\n') (multilineBasic? false rest)
  | _, '\\' :: 'x' :: a :: b :: rest => cons? (codePoint? [a, b]) (multilineBasic? false rest)
  | _, '\\' :: 'u' :: a :: b :: c :: d :: rest =>
    cons? (codePoint? [a, b, c, d]) (multilineBasic? false rest)
  | _, '\\' :: 'U' :: a :: b :: c :: d :: e :: f :: g :: h :: rest =>
    cons? (codePoint? [a, b, c, d, e, f, g, h]) (multilineBasic? false rest)
  | _, '\\' :: c :: rest =>
    if continuesLine (c :: rest) then multilineBasic? true rest
    else cons? (escape? c) (multilineBasic? false rest)
  | skipping, c :: rest =>
    if skipping && (isSpace c || c == '\n') then multilineBasic? true rest
    else if (isPrintable c && c != '\\') || c == '\n' then
      cons? (some c) (multilineBasic? false rest)
    else none

/-- The rest of a text in three single quotes. -/
def multilineLiteral? : List Char → Option (List Char × List Char)
  | [] => none
  | '\'' :: '\'' :: '\'' :: '\'' :: '\'' :: rest => some (['\'', '\''], rest)
  | '\'' :: '\'' :: '\'' :: '\'' :: rest => some (['\''], rest)
  | '\'' :: '\'' :: '\'' :: rest => some ([], rest)
  | '\r' :: '\n' :: rest => cons? (some '\n') (multilineLiteral? rest)
  | c :: rest =>
    if isPrintable c || c == '\n' then cons? (some c) (multilineLiteral? rest) else none

/-- Reads a text in quotes of any kind.  A line end right behind three quotes does
not count. -/
def quoted? (s : List Char) : Option (String × List Char) := do
  let (text, rest) ← match s with
    | '"' :: '"' :: '"' :: rest => multilineBasic? false ((newline? rest).getD rest)
    | '"' :: rest => basic? rest
    | '\'' :: '\'' :: '\'' :: rest => multilineLiteral? ((newline? rest).getD rest)
    | '\'' :: rest => literal? rest
    | _ => none
  return (String.ofList text, rest)

/-! ### Numbers -/

/-- Digits with single underscores between them, without the underscores. -/
def plainDigits? (base : Nat) (s : List Char) : Option (List Char) :=
  let runs := split '_' s
  if runs.all fun run => !run.isEmpty && run.all fun c => (digitValue? base c).isSome then
    some runs.flatten
  else none

/-- Digits of a decimal number that has no leading zero. -/
def leadingDigits? (s : List Char) : Option (List Char) := do
  let digits ← plainDigits? 10 s
  if digits.length > 1 && digits.head? = some '0' then none else some digits

/-- The integer, if it fits a word. -/
def fitted? (n : Int) : Option SettingTree :=
  if fitsWord n then some (.integer n) else none

/-- Reads digits in a base other than ten. -/
def inBase? (base : Nat) (s : List Char) : Option SettingTree := do
  let digits ← plainDigits? base s
  fitted? (← readNat? base digits)

/-- Reads a decimal number without its sign: an integer, or a number with a
fraction or an exponent that is not too large. -/
def decimal? (negative : Bool) (s : List Char) : Option SettingTree := do
  let isMark (c : Char) : Bool := c == '.' || c == 'e' || c == 'E'
  let whole := s.takeWhile fun c => !isMark c
  let digits ← leadingDigits? whole
  let rest := s.drop whole.length
  if rest.isEmpty then
    let n ← readNat? 10 digits
    fitted? (if negative then -n else n)
  else
    let (fraction, rest) ← match rest with
      | '.' :: more =>
        let piece := more.takeWhile fun c => !isMark c
        (plainDigits? 10 piece).map fun ds => (ds, more.drop piece.length)
      | _ => some ([], rest)
    let exponent ← match rest with
      | [] => some (0 : Int)
      | '.' :: _ => none
      | _ :: more =>
        let (down, piece) := Decimal.splitSign more
        (plainDigits? 10 piece).bind fun ds => (readNat? 10 ds).map fun n =>
          if down then -(n : Int) else n
    let mantissa ← readNat? 10 (digits ++ fraction)
    let x := Decimal.nearest mantissa (exponent - fraction.length)
    if x.isInf then none else some (.float (if negative then -x else x))

/-- Reads a number. -/
def number? (s : List Char) : Option SettingTree :=
  match s with
  | '0' :: 'x' :: digits => inBase? 16 digits
  | '0' :: 'o' :: digits => inBase? 8 digits
  | '0' :: 'b' :: digits => inBase? 2 digits
  | _ =>
    let (negative, rest) := Decimal.splitSign s
    let signed (x : Float) : Float := if negative then -x else x
    if rest = "inf".toList then some (.float (signed (1.0 / 0.0)))
    else if rest = "nan".toList then some (.float (signed (0.0 / 0.0)))
    else decimal? negative rest

/-! ### Dates and times -/

/-- Reads exactly `width` decimal digits. -/
def fixedDigits? (width : Nat) (s : List Char) : Option (Nat × List Char) := do
  let digits := s.take width
  if digits.length = width && digits.all Char.isDigit then
    return (← readNat? 10 digits, s.drop width)
  else none

/-- Removes a character from the front. -/
def expect? (c : Char) : List Char → Option (List Char)
  | d :: rest => if d = c then some rest else none
  | [] => none

/-- The number of days in a month. -/
def daysIn (year month : Nat) : Nat :=
  if month = 2 then
    if year % 4 = 0 && (year % 100 ≠ 0 || year % 400 = 0) then 29 else 28
  else if month = 4 || month = 6 || month = 9 || month = 11 then 30
  else 31

/-- The number in decimal digits, filled up with zeros to a width. -/
def padded (width n : Nat) : List Char :=
  let digits := (Nat.repr n).toList
  List.replicate (width - digits.length) '0' ++ digits

/-- Reads a date, and gives it in its written form. -/
def date? (s : List Char) : Option (List Char × List Char) := do
  let (year, rest) ← fixedDigits? 4 s
  let (month, rest) ← fixedDigits? 2 (← expect? '-' rest)
  let (day, rest) ← fixedDigits? 2 (← expect? '-' rest)
  if 1 ≤ month && month ≤ 12 && 1 ≤ day && day ≤ daysIn year month then
    return (padded 4 year ++ '-' :: padded 2 month ++ '-' :: padded 2 day, rest)
  else none

/-- Reads the seconds of a time of day, and what they are without any. -/
def seconds? : List Char → Option (Nat × List Char)
  | ':' :: rest => fixedDigits? 2 rest
  | rest => some (0, rest)

/-- Reads a time of day, and gives it in its written form.  Fractions of a second
have at most nine digits and no zeros at their end. -/
def time? (s : List Char) : Option (List Char × List Char) := do
  let (hour, rest) ← fixedDigits? 2 s
  let (minute, rest) ← fixedDigits? 2 (← expect? ':' rest)
  let hasSeconds := rest.head? = some ':'
  let (second, rest) ← seconds? rest
  if hour > 23 || minute > 59 || second > 60 then none
  else
    let clock := padded 2 hour ++ ':' :: padded 2 minute ++ ':' :: padded 2 second
    match rest with
    | '.' :: more =>
      let digits := more.takeWhile Char.isDigit
      if digits.isEmpty || !hasSeconds then none
      else
        let kept := ((digits.take 9).reverse.dropWhile (· == '0')).reverse
        let fraction := if kept.isEmpty then [] else '.' :: kept
        return (clock ++ fraction, more.drop digits.length)
    | _ => return (clock, rest)

/-- Reads an offset from universal time to the end, and gives it in its written form. -/
def offset? (s : List Char) : Option (List Char) := do
  match s with
  | [] => some []
  | ['Z'] | ['z'] => some ['Z']
  | sign :: rest =>
    if sign = '+' || sign = '-' then
      let (hour, rest) ← fixedDigits? 2 rest
      let (minute, rest) ← fixedDigits? 2 (← expect? ':' rest)
      if hour > 23 || minute > 59 || !rest.isEmpty then none
      else some (sign :: padded 2 hour ++ ':' :: padded 2 minute)
    else none

/-- Reads a date, a time of day or both, which count as texts. -/
def dateTime? (s : List Char) : Option SettingTree := do
  let text ← match date? s with
    | some (date, []) => some date
    | some (date, mark :: rest) =>
      if mark = 'T' || mark = 't' || mark = ' ' then do
        let (clock, rest) ← time? rest
        let offset ← offset? rest
        some (date ++ 'T' :: clock ++ offset)
      else none
    | none => do
      let (clock, rest) ← time? s
      if rest.isEmpty then some clock else none
  return .text (String.ofList text)

/-! ### Words -/

/-- The characters of words. -/
def isWordChar (c : Char) : Bool :=
  c.isAlphanum || c == '_' || c == '+' || c == '-' || c == '.' || c == ':'

/-- The word at the start of a text.  A date takes a time of day behind a space with
it. -/
def wordAt (s : List Char) : List Char :=
  let word := s.takeWhile isWordChar
  match date? word, s.drop word.length with
  | some (_, []), ' ' :: more =>
    let second := more.takeWhile isWordChar
    if (time? second).isSome then word ++ ' ' :: second else word
  | _, _ => word

/-- Reads a scalar that is not in quotes. -/
def word? (s : List Char) : Option (SettingTree × List Char) := do
  let word := wordAt s
  let value ←
    if word = "true".toList then some (.bool true)
    else if word = "false".toList then some (.bool false)
    else (number? word).or (dateTime? word)
  return (value, s.drop word.length)

end TaskAccess.Toml
