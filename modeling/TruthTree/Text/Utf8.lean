import TruthTree.Text.Basic

/-! Strict decoding of bytes as text. A fault names the bytes that stopped the decoding and how they
were wrong. A file is decoded in blocks, as it is read, and positions count from the start of the
block at hand together with what the block before it left unfinished. -/
namespace TruthTree.Text

inductive ByteFlaw where
  | badStart
  | badContinuation
  | cutShort
  deriving DecidableEq

structure ByteFault where
  flaw : ByteFlaw
  position : Nat
  bytes : List UInt8
  deriving DecidableEq

def ByteFlaw.message : ByteFlaw → String
  | .badStart => "invalid start byte"
  | .badContinuation => "invalid continuation byte"
  | .cutShort => "unexpected end of data"

def ByteFault.message (fault : ByteFault) : String :=
  let last := fault.position + fault.bytes.length - 1
  let place := match fault.bytes with
    | [byte] => s!"byte 0x{(hex 2 byte.toNat).toStr} in position {fault.position}"
    | _ => s!"bytes in position {fault.position}-{last}"
  s!"'utf-8' codec can't decode {place}: {fault.flaw.message}"

/-- What the first byte of a character announces: the bits that it contributes itself, and the ranges
that the bytes after it must lie in. -/
def lead? (byte : UInt8) : Option (Nat × List (Nat × Nat)) :=
  let b := byte.toNat
  let any := (0x80, 0xBF)
  if b < 0x80 then some (b, [])
  else if b < 0xC2 then none
  else if b < 0xE0 then some (b - 0xC0, [any])
  else if b = 0xE0 then some (0, [(0xA0, 0xBF), any])
  else if b = 0xED then some (13, [(0x80, 0x9F), any])
  else if b < 0xF0 then some (b - 0xE0, [any, any])
  else if b = 0xF0 then some (0, [(0x90, 0xBF), any, any])
  else if b < 0xF4 then some (b - 0xF0, [any, any, any])
  else if b = 0xF4 then some (4, [(0x80, 0x8F), any, any])
  else none

/-- A character that has begun: its bytes so far, the latest first, the bits they make, the range of
the byte that is due next and the ranges of those after it. -/
structure Begun where
  taken : List UInt8
  code : Nat
  due : Nat × Nat
  later : List (Nat × Nat)

/-- Two bytes with which the three of a surrogate begin. No text holds a surrogate, but as long as the
third byte is out of sight the pair counts as unfinished. -/
def beginsSurrogate : List UInt8 → Bool
  | [first, second] => first.toNat = 0xED && 0xA0 ≤ second.toNat && second.toNat ≤ 0xBF
  | _ => false

/-- Decodes a block and gives back the bytes of a character that the block cuts short. The position
is that of the character being read. -/
def decodeBlock (position : Nat) : Option Begun → List UInt8 → Except ByteFault (Text × List UInt8)
  | none, [] => .ok ([], [])
  | some begun, [] => .ok ([], begun.taken.reverse)
  | none, byte :: rest =>
    match lead? byte with
    | none => .error ⟨.badStart, position, [byte]⟩
    | some (code, []) =>
      (decodeBlock (position + 1) none rest).map fun (text, left) => (Char.ofNat code :: text, left)
    | some (code, due :: later) => decodeBlock position (some ⟨[byte], code, due, later⟩) rest
  | some begun, byte :: rest =>
    if begun.due.1 ≤ byte.toNat && byte.toNat ≤ begun.due.2 then
      let code := begun.code * 64 + (byte.toNat - 0x80)
      match begun.later with
      | [] =>
        (decodeBlock (position + begun.taken.length + 1) none rest).map fun (text, left) =>
          (Char.ofNat code :: text, left)
      | due :: later => decodeBlock position (some ⟨byte :: begun.taken, code, due, later⟩) rest
    else if rest.isEmpty && beginsSurrogate (begun.taken.reverse ++ [byte]) then
      .ok ([], begun.taken.reverse ++ [byte])
    else .error ⟨.badContinuation, position, begun.taken.reverse⟩

def blockSize : Nat := 8192

def endFault (unfinished : List UInt8) : ByteFault :=
  if beginsSurrogate unfinished then ⟨.badContinuation, 0, unfinished.take 1⟩
  else ⟨.cutShort, 0, unfinished⟩

def decodeFrom (unfinished : List UInt8) : List UInt8 → Except ByteFault Text
  | [] => if unfinished.isEmpty then .ok [] else .error (endFault unfinished)
  | byte :: rest =>
    match decodeBlock 0 none (unfinished ++ (byte :: rest).take blockSize) with
    | .error fault => .error fault
    | .ok (text, left) => (decodeFrom left ((byte :: rest).drop blockSize)).map (text ++ ·)
termination_by bytes => bytes.length
decreasing_by
  simp only [blockSize, List.length_drop, List.length_cons]
  omega

def decode (bytes : List UInt8) : Except ByteFault Text := decodeFrom [] bytes

end TruthTree.Text
