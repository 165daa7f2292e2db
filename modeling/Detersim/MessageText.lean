import Detersim.Core

/-!
The text of a message in a trace line: its bytes decoded with replacement, and the
result in debug form. `printed` stands for the tables of characters that are shown
as they are.
-/

namespace Detersim

/-- The bytes a character takes that starts with this one. -/
def utf8Width (first : UInt8) : Nat :=
  if first < 0x80 then 1
  else if 0xC2 ≤ first ∧ first ≤ 0xDF then 2
  else if 0xE0 ≤ first ∧ first ≤ 0xEF then 3
  else if 0xF0 ≤ first ∧ first ≤ 0xF4 then 4
  else 0

def isContinuation (byte : UInt8) : Bool := decide (0x80 ≤ byte) && decide (byte ≤ 0xBF)

/-- Overlong forms, surrogates and numbers that are too large end at the second byte. -/
def isSecond (first byte : UInt8) : Bool :=
  if first = 0xE0 then decide (0xA0 ≤ byte) && decide (byte ≤ 0xBF)
  else if first = 0xED then decide (0x80 ≤ byte) && decide (byte ≤ 0x9F)
  else if first = 0xF0 then decide (0x90 ≤ byte) && decide (byte ≤ 0xBF)
  else if first = 0xF4 then decide (0x80 ≤ byte) && decide (byte ≤ 0x8F)
  else isContinuation byte

/-- Reads the bytes still due; also counts those read. -/
def readContinuations (code : Nat) : Nat → List UInt8 → Option Nat × Nat
  | 0, _ => (some code, 0)
  | _ + 1, [] => (none, 0)
  | due + 1, byte :: rest =>
      if isContinuation byte then
        let (code, used) := readContinuations (code * 64 + byte.toNat % 64) due rest
        (code, used + 1)
      else (none, 0)

/-- The character that starts with this byte, if it is well formed, and how many of
the bytes after it were read. -/
def readChar (first : UInt8) (rest : List UInt8) : Option Nat × Nat :=
  match utf8Width first with
  | 0 => (none, 0)
  | 1 => (some first.toNat, 0)
  | due + 2 => match rest with
    | [] => (none, 0)
    | second :: rest =>
        if isSecond first second then
          let lead := first.toNat % 2 ^ (5 - due)
          let (code, used) := readContinuations (lead * 64 + second.toNat % 64) due rest
          (code, used + 1)
        else (none, 0)

/-- The bytes that were read already are skipped. -/
def decodeLossy : Nat → List UInt8 → List Char
  | _, [] => []
  | skip + 1, _ :: rest => decodeLossy skip rest
  | 0, first :: rest =>
      let (code, used) := readChar first rest
      ((code.map Char.ofNat).getD '\uFFFD') :: decodeLossy used rest

/-- `String::from_utf8_lossy`. -/
def fromUtf8Lossy (bytes : List UInt8) : List Char := decodeLossy 0 bytes

example : fromUtf8Lossy [0x61, 0xC3, 0xA9, 0xFF, 0xE2, 0x82, 0xF0, 0x9F, 0x98, 0x80] =
    ['a', 'é', '\uFFFD', '\uFFFD', '😀'] := by decide

/-- One character of a string in debug form. -/
def debugChar (printed : Char → Bool) (ch : Char) : List Char :=
  if ch = '\x00' then ['\\', '0']
  else if ch = '\t' then ['\\', 't']
  else if ch = '\n' then ['\\', 'n']
  else if ch = '\r' then ['\\', 'r']
  else if ch = '"' then ['\\', '"']
  else if ch = '\\' then ['\\', '\\']
  else if printed ch then [ch]
  else ['\\', 'u', '\x7b'] ++ Nat.toDigits 16 ch.toNat ++ ['\x7d']

def messageText (printed : Char → Bool) (msg : Message) : String :=
  String.ofList ('"' :: ((fromUtf8Lossy msg).flatMap (debugChar printed) ++ ['"']))

theorem messageText_quoted (printed : Char → Bool) (msg : Message) :
    ∃ rest, (messageText printed msg).toList = '"' :: rest :=
  ⟨_, String.toList_ofList⟩

end Detersim
