import OtaUpdater.Lib.Text

/-!
# The Intel-HEX parser (`ihex.rs`)

The notes on standard error are left out.
-/

open OtaUpdater.Lib.Text

namespace OtaUpdater.Host

/-! ## Hex digits -/

/-- Why a text stands for no bytes, and at which pair. -/
inductive HexError where
  | OddDigits
  | InvalidUtf8 (pair : List UInt8)
  | InvalidDigits (pair : List UInt8)
deriving DecidableEq, Repr

/-- The value of a hexadecimal digit, of either case. -/
def to_digit (b : UInt8) : Option Nat :=
  if 0x30 ≤ b ∧ b ≤ 0x39 then some (b.toNat - 0x30)
  else if 0x41 ≤ b ∧ b ≤ 0x46 then some (b.toNat - 0x41 + 10)
  else if 0x61 ≤ b ∧ b ≤ 0x66 then some (b.toNat - 0x61 + 10)
  else none

def from_digits (digits : List UInt8) : Option UInt8 :=
  digits.foldlM (fun (value : UInt8) b => do
    let digit ← to_digit b
    let value := value.toNat * 16 + digit
    if value < 256 then some (UInt8.ofNat value) else none) 0

/-- `u8::from_str_radix` at radix 16: a plus sign may stand before the digits. -/
def from_str_radix_16 : List UInt8 → Option UInt8
  | [] => none
  | [b] => if b = 0x2B ∨ b = 0x2D then none else from_digits [b]
  | b :: digits => if b = 0x2B then from_digits digits else from_digits (b :: digits)

/-- Two bytes of UTF-8: a pair of ASCII characters, or a character that takes two. -/
def is_utf8_pair (a b : UInt8) : Bool :=
  (a < 0x80 && b < 0x80) || (0xC2 ≤ a && a ≤ 0xDF && 0x80 ≤ b && b ≤ 0xBF)

def decode_pair (a b : UInt8) : Except HexError UInt8 :=
  if is_utf8_pair a b then
    match from_str_radix_16 [a, b] with
    | some byte => .ok byte
    | none => .error (.InvalidDigits [a, b])
  else .error (.InvalidUtf8 [a, b])

def decode_pairs : List UInt8 → Except HexError (List UInt8)
  | a :: b :: rest =>
    match decode_pair a b with
    | .error e => .error e
    | .ok byte =>
      match decode_pairs rest with
      | .error e => .error e
      | .ok bytes => .ok (byte :: bytes)
  | _ => .ok []

def decode_hex (s : List Char) : Except HexError (List UInt8) :=
  if (utf8 s).length % 2 ≠ 0 then .error .OddDigits else decode_pairs (utf8 s)

/-! ## Records -/

/-- Every error but the last one names the line it was found in. -/
inductive IhexError where
  | AfterEof (lineno : Nat)
  | NoColon (lineno : Nat)
  | Hex (lineno : Nat) (e : HexError)
  | TooShort (lineno : Nat) (len : Nat)
  | NoChecksum (lineno : Nat)
  | Length (lineno : Nat) (ll : UInt8) (carries : Nat)
  | Checksum (lineno : Nat)
  | ExtendedAddress (lineno : Nat) (rtype : UInt8)
  | Unsupported (lineno : Nat) (rtype : UInt8)
  | MissingEof
deriving DecidableEq, Repr

structure Parsing where
  out : List UInt8
  saw_eof : Bool
deriving DecidableEq, Repr

/-- Gaps are filled with the value of erased flash. -/
def GAP : UInt8 := 0xFF

def resize (out : List UInt8) (n : Nat) (value : UInt8) : List UInt8 :=
  out.take n ++ List.replicate (n - out.length) value

/-- What a data record does to `out`. -/
def put_data (out : List UInt8) (addr : Nat) (data : List UInt8) : List UInt8 :=
  let stop := addr + data.length
  let out := if out.length < stop then resize out stop GAP else out
  out.take addr ++ data ++ out.drop stop

/-- The bytes of a record: `ll aaaa tt [dd..] cc`. -/
def parse_record (lineno : Nat) (bytes : List UInt8) (st : Parsing) : Except IhexError Parsing :=
  match bytes with
  | ll :: addr_hi :: addr_lo :: rtype :: rest =>
    match rest.getLast? with
    | none => .error (.NoChecksum lineno)
    | some _ =>
      let data := rest.dropLast
      if data.length ≠ ll.toNat then .error (.Length lineno ll data.length)
      else if bytes.foldl (· + ·) 0 ≠ 0 then .error (.Checksum lineno)
      else
        let addr := addr_hi.toNat * 256 + addr_lo.toNat
        match rtype with
        | 0x00 => .ok { st with out := put_data st.out addr data }
        | 0x01 => .ok { st with saw_eof := true }
        | 0x02 | 0x04 => .error (.ExtendedAddress lineno rtype)
        | 0x03 | 0x05 => .ok st
        | other => .error (.Unsupported lineno other)
  | _ => .error (.TooShort lineno bytes.length)

/-! ## Lines -/

def parse_line (lineno : Nat) (raw_line : List Char) (st : Parsing) : Except IhexError Parsing :=
  let line := trim raw_line
  if line = [] then .ok st
  else if st.saw_eof then .error (.AfterEof lineno)
  else
    match line with
    | ':' :: hex =>
      match decode_hex hex with
      | .error e => .error (.Hex lineno e)
      | .ok bytes => parse_record lineno bytes st
    | _ => .error (.NoColon lineno)

def parse_lines : Nat → List (List Char) → Parsing → Except IhexError Parsing
  | _, [], st => .ok st
  | idx, raw_line :: rest, st =>
    match parse_line (idx + 1) raw_line st with
    | .error e => .error e
    | .ok st => parse_lines (idx + 1) rest st

def parse (text : List Char) : Except IhexError (List UInt8) :=
  match parse_lines 0 (lines text) { out := [], saw_eof := false } with
  | .error e => .error e
  | .ok st => if st.saw_eof then .ok st.out else .error .MissingEof

end OtaUpdater.Host
