import RtThread.Lib.BoundedWriter

/-!
# Formatted output

`rt_vsnprintf` of `kservice.c`. The cursor `str` advances with every character, and a character is stored unless the address that the cursor has come to lies behind `end`; behind the last address comes the first. Between the flags and the conversion character a directive is read without any output, and an argument is fetched; then the field is written.

Signed integers wrap around in 32 bits. An argument list that does not have the arguments that the format reads has no output here.
-/

namespace RtThread

structure PrintfConfig where
  /-- `RT_PRINTF_PRECISION` -/
  precision : Bool
  /-- `RT_PRINTF_SPECIAL` -/
  special : Bool
  /-- `RT_PRINTF_LONGLONG` -/
  longlong : Bool
  /-- The bits of a `long` and of an address. -/
  wordBits : Nat
  deriving DecidableEq

def nul : Char := Char.ofNat 0

def CString := { s : List Char // ∀ c ∈ s, 0 < c.toNat ∧ c.toNat < 256 }

theorem CString.of_all {s : List Char} (h : (s.all fun c => decide (0 < c.toNat ∧ c.toNat < 256)) = true) :
    ∀ c ∈ s, 0 < c.toNat ∧ c.toNat < 256 :=
  fun c hc => of_decide_eq_true (List.all_eq_true.1 h c hc)

inductive PrintArg
  | int (value : BitVec 32)
  | longLong (value : BitVec 64)
  /-- A `char *`, which may be null. -/
  | string (s : Option CString)
  | pointer (address : Nat)

/-- `flags`, with a name for each bit. -/
structure PrintFlags where
  zeropad : Bool := false
  sign : Bool := false
  plus : Bool := false
  space : Bool := false
  left : Bool := false
  special : Bool := false
  large : Bool := false
  deriving DecidableEq

/-- `h`, `l`, or `L` for integer fields. -/
inductive Qualifier
  | none | short | long | longLong
  deriving DecidableEq

inductive Directive
  /-- `%%`, or a `%` with a character that is no conversion. -/
  | text (s : List Char)
  | char (left : Bool) (fieldWidth : Int) (c : Char)
  | string (left : Bool) (fieldWidth precision : Int) (s : List Char)
  | number (num : Int) (base : Nat) (fieldWidth precision : Int) (flags : PrintFlags)
  deriving DecidableEq

/-- A value as a 32-bit `int`. -/
def toInt32 (x : Int) : Int := x.bmod (2 ^ 32)

/-! ## Reading a directive -/

/-- "process flags" -/
def readFlags (flags : PrintFlags) : List Char → PrintFlags × List Char
  | [] => (flags, [])
  | c :: fmt =>
    if c = '-' then readFlags { flags with left := true } fmt
    else if c = '+' then readFlags { flags with plus := true } fmt
    else if c = ' ' then readFlags { flags with space := true } fmt
    else if c = '#' then readFlags { flags with special := true } fmt
    else if c = '0' then readFlags { flags with zeropad := true } fmt
    else (flags, c :: fmt)

def skipAtoi (i : Int) : List Char → Int × List Char
  | [] => (i, [])
  | c :: fmt => if c.isDigit then skipAtoi (toInt32 (i * 10 + c.toNat - 48)) fmt else (i, c :: fmt)

/-- `va_arg(args, int)` -/
def argInt : List PrintArg → Option (Int × List PrintArg)
  | .int value :: args => some (value.toInt, args)
  | _ => none

/-- "get field width" -/
def readWidth (flags : PrintFlags) (fmt : List Char) (args : List PrintArg) :
    Option (Int × PrintFlags × List Char × List PrintArg) :=
  match fmt with
  | [] => some (-1, flags, [], args)
  | c :: fmt =>
    if c.isDigit then
      let (fieldWidth, fmt) := skipAtoi 0 (c :: fmt)
      some (fieldWidth, flags, fmt, args)
    else if c = '*' then
      (argInt args).map fun (fieldWidth, args) =>
        if fieldWidth < 0 then (toInt32 (-fieldWidth), { flags with left := true }, fmt, args)
        else (fieldWidth, flags, fmt, args)
    else some (-1, flags, c :: fmt, args)

def readPrecisionValue (fmt : List Char) (args : List PrintArg) : Option (Int × List Char × List PrintArg) :=
  match fmt with
  | [] => some (0, [], args)
  | c :: fmt =>
    if c.isDigit then
      let (precision, fmt) := skipAtoi 0 (c :: fmt)
      some (if precision < 0 then 0 else precision, fmt, args)
    else if c = '*' then
      (argInt args).map fun (precision, args) => (if precision < 0 then 0 else precision, fmt, args)
    else some (0, c :: fmt, args)

/-- "get the precision" -/
def readPrecision (cfg : PrintfConfig) (fmt : List Char) (args : List PrintArg) :
    Option (Int × List Char × List PrintArg) :=
  match fmt with
  | [] => some (-1, [], args)
  | c :: fmt =>
    if cfg.precision = true ∧ c = '.' then readPrecisionValue fmt args else some (-1, c :: fmt, args)

/-- "get the conversion qualifier" -/
def readQualifier (cfg : PrintfConfig) (fmt : List Char) : Qualifier × List Char :=
  match fmt with
  | [] => (.none, [])
  | c :: fmt =>
    if c = 'h' then (.short, fmt)
    else if c = 'l' then
      match fmt with
      | [] => (.long, [])
      | d :: rest => if cfg.longlong = true ∧ d = 'l' then (.longLong, rest) else (.long, d :: rest)
    else if cfg.longlong = true ∧ c = 'L' then (.longLong, fmt)
    else (.none, c :: fmt)

/-- `num` as it is passed on to `print_number`: an unsigned word, read as a `long`. -/
def readInteger (cfg : PrintfConfig) (qualifier : Qualifier) (sign : Bool) (args : List PrintArg) :
    Option (Int × List PrintArg) :=
  let toNum (x : Int) : Int := (x % (if cfg.longlong then 2 ^ 64 else 2 ^ 32)).bmod (2 ^ cfg.wordBits)
  match qualifier, args with
  | .longLong, .longLong value :: args => some (toNum value.toNat, args)
  | .longLong, _ => none
  | .short, .int value :: args =>
    let half : Int := value.toNat % 2 ^ 16
    some (toNum (if sign then half.bmod (2 ^ 16) else half), args)
  | _, .int value :: args => some (toNum (if sign then value.toInt else value.toNat), args)
  | _, _ => none

/-- The `switch` on the conversion character, up to the output. -/
def readConversion (cfg : PrintfConfig) (flags : PrintFlags) (fieldWidth precision : Int) (qualifier : Qualifier)
    (fmt : List Char) (args : List PrintArg) : Option (Directive × List Char × List PrintArg) :=
  let integer (base : Nat) (flags : PrintFlags) (fmt : List Char) :=
    (readInteger cfg qualifier flags.sign args).map fun (num, args) =>
      (Directive.number num base fieldWidth precision flags, fmt, args)
  match fmt with
  | [] => some (.text ['%'], [], args)
  | c :: fmt =>
    if c = 'c' then
      match args with
      | .int value :: args => some (.char flags.left fieldWidth (Char.ofNat (value.toNat % 256)), fmt, args)
      | _ => none
    else if c = 's' then
      match args with
      | .string s :: args => some (.string flags.left fieldWidth precision (s.elim "(NULL)".toList Subtype.val), fmt, args)
      | _ => none
    else if c = 'p' then
      match args with
      | .pointer address :: args =>
        let num := (address : Int).bmod (2 ^ cfg.wordBits)
        if fieldWidth = -1 then
          some (.number num 16 (cfg.wordBits / 8 * 2) precision { flags with zeropad := true }, fmt, args)
        else some (.number num 16 fieldWidth precision flags, fmt, args)
      | _ => none
    else if c = '%' then some (.text ['%'], fmt, args)
    else if c = 'o' then integer 8 flags fmt
    else if c = 'X' then integer 16 { flags with large := true } fmt
    else if c = 'x' then integer 16 flags fmt
    else if c = 'd' ∨ c = 'i' then integer 10 { flags with sign := true } fmt
    else if c = 'u' then integer 10 flags fmt
    else some (.text ['%', c], fmt, args)

/-- A directive, behind its `%`. -/
def readDirective (cfg : PrintfConfig) (fmt : List Char) (args : List PrintArg) :
    Option (Directive × List Char × List PrintArg) :=
  let (flags, fmt) := readFlags {} fmt
  (readWidth flags fmt args).bind fun (fieldWidth, flags, fmt, args) =>
    (readPrecision cfg fmt args).bind fun (precision, fmt, args) =>
      let (qualifier, fmt) := readQualifier cfg fmt
      readConversion cfg flags fieldWidth precision qualifier fmt args

/-! ## Writing a field -/

/-- `while (--width > 0)`: the rounds, and the width behind the loop. -/
def countDown (width : Int) : Nat × Int :=
  let width := toInt32 (width - 1)
  (width.toNat, if 0 < width then 0 else width)

/-- `while (len < width--)` -/
def countTo (len width : Int) : Nat × Int := ((width - len).toNat, toInt32 ((if len < width then len else width) - 1))

def spaces (n : Nat) : List Char := List.replicate n ' '

/-- `case 'c'` -/
def charText (left : Bool) (fieldWidth : Int) (c : Char) : List Char :=
  let (before, fieldWidth) := if left then (0, fieldWidth) else countDown fieldWidth
  spaces before ++ [c] ++ spaces (countDown fieldWidth).1

/-- `case 's'` -/
def stringText (left : Bool) (fieldWidth precision : Int) (s : List Char) : List Char :=
  let len := toInt32 s.length
  let len := if 0 < precision ∧ precision < len then precision else len
  let (before, fieldWidth) := if left then (0, fieldWidth) else countTo len fieldWidth
  spaces before ++ s.take len.toNat ++ spaces (countTo len fieldWidth).1

def smallDigits : List Char := "0123456789abcdef".toList

def largeDigits : List Char := "0123456789ABCDEF".toList

/-- `while (num != 0) tmp[i++] = digits[divide(&num, base)]`; whatever is not decimal is divided by 16. -/
def divideLoop (digits : List Char) (base : Nat) : Nat → Nat → List Char
  | 0, _ => []
  | fuel + 1, num =>
    if num = 0 then []
    else
      let divisor := if base = 10 then 10 else 16
      digits.getD (num % divisor) nul :: divideLoop digits base fuel (num / divisor)

/-- What `print_number` has computed when it comes to its first loop. -/
structure NumberField where
  sign : Option Char
  tmp : List Char
  precision : Int
  size : Int
  base : Nat
  flags : PrintFlags

/-- `print_number` up to its first loop. -/
def numberField (cfg : PrintfConfig) (num : Int) (base : Nat) (s precision : Int) (flags : PrintFlags) : NumberField :=
  let flags := if flags.left then { flags with zeropad := false } else flags
  let negative := flags.sign = true ∧ num < 0
  let sign :=
    if flags.sign then
      if num < 0 then some '-' else if flags.plus then some '+' else if flags.space then some ' ' else none
    else none
  let magnitude := ((if negative then -num else num) % 2 ^ cfg.wordBits).toNat
  let digits := if flags.large then largeDigits else smallDigits
  let tmp := if magnitude = 0 then ['0'] else divideLoop digits base cfg.wordBits magnitude
  let size :=
    if cfg.special = true ∧ flags.special = true then
      if base = 16 then toInt32 (s - 2) else if base = 8 then toInt32 (s - 1) else s
    else s
  let precision := if cfg.precision = true ∧ (tmp.length : Int) ≤ precision then precision else tmp.length
  ⟨sign, tmp, precision, toInt32 (size - precision), base, flags⟩

/-- `while (size-- > 0)`: the size behind the loop; the rounds are as many as the size, if that is positive. -/
def sizeBehind (size : Int) : Int := if 0 < size then -1 else toInt32 (size - 1)

def leadingSpaces (field : NumberField) : Nat × Int :=
  if field.flags.zeropad = false ∧ field.flags.left = false then
    let size := if field.sign.isSome ∧ 0 < field.size then field.size - 1 else field.size
    (size.toNat, sizeBehind size)
  else (0, field.size)

/-- `0` or `0x` with `RT_PRINTF_SPECIAL`. -/
def specialPrefix (cfg : PrintfConfig) (field : NumberField) : List Char :=
  if cfg.special = true ∧ field.flags.special = true then
    if field.base = 8 then ['0'] else if field.base = 16 then ['0', if field.flags.large then 'X' else 'x'] else []
  else []

def printNumber (cfg : PrintfConfig) (cell : Nat → Option Nat) (buf : Cursor Char) (num : Int) (base : Nat) (s precision : Int)
    (flags : PrintFlags) : Cursor Char :=
  let field := numberField cfg num base s precision flags
  let (lead, size) := leadingSpaces field
  let buf := buf.puts cell (spaces lead)
  let (buf, size) :=
    match field.sign with
    | none => (buf, size)
    | some sign => (buf.put cell sign, if (cell buf.pos).isSome then toInt32 (size - 1) else size)
  let buf := buf.puts cell (specialPrefix cfg field)
  -- "no align to the left"
  let (buf, size) :=
    if field.flags.left then (buf, size)
    else (buf.puts cell (List.replicate size.toNat (if field.flags.zeropad then '0' else ' ')), sizeBehind size)
  let buf := buf.puts cell (List.replicate (field.precision - field.tmp.length).toNat '0')
  -- "put number in the temporary buffer"
  let buf := buf.puts cell field.tmp.reverse
  buf.puts cell (spaces size.toNat)

def printDirective (cfg : PrintfConfig) (cell : Nat → Option Nat) (str : Cursor Char) : Directive → Cursor Char
  | .text s => str.puts cell s
  | .char left fieldWidth c => str.puts cell (charText left fieldWidth c)
  | .string left fieldWidth precision s => str.puts cell (stringText left fieldWidth precision s)
  | .number num base fieldWidth precision flags => printNumber cfg cell str num base fieldWidth precision flags

/-- `for (; *fmt ; ++fmt)` -/
def vsnprintfLoop (cfg : PrintfConfig) (cell : Nat → Option Nat) : Nat → List Char → List PrintArg → Cursor Char → Option (Cursor Char)
  | _, [], _, str => some str
  | 0, _ :: _, _, _ => none
  | fuel + 1, c :: fmt, args, str =>
    if c ≠ '%' then vsnprintfLoop cfg cell fuel fmt args (str.put cell c)
    else
      (readDirective cfg fmt args).bind fun (directive, fmt, args) =>
        vsnprintfLoop cfg cell fuel fmt args (printDirective cfg cell str directive)

/-- `end`: "Make sure end is always >= buf". -/
def endAddress (cfg : PrintfConfig) (buf size : Nat) : Nat :=
  let last := (buf + size + (2 ^ cfg.wordBits - 1)) % 2 ^ cfg.wordBits
  if last < buf then 2 ^ cfg.wordBits - 1 else last

/-- `rt_vsnprintf` on a buffer at the address `buf`: the result, and what has been stored at which address. -/
def rtVsnprintf (cfg : PrintfConfig) (buf size : Nat) (fmt : CString) (args : List PrintArg) :
    Option (Int × (Nat → Option Char)) :=
  let last := endAddress cfg buf size
  let cell := Cursor.window (2 ^ cfg.wordBits) buf last
  (vsnprintfLoop cfg cell fmt.val.length fmt.val args .start).map fun str =>
    (toInt32 str.pos, Function.update str.cells ((cell str.pos).getD last) (some nul))

end RtThread
