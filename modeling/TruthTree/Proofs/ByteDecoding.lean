import TruthTree.Text.Utf8
import Mathlib.Data.List.Basic

/-! Every text can be read back from its bytes. A file is decoded in blocks, and a block may end within a
character; its bytes are then handed on to the next block, so the text does not depend on where the blocks
end. -/
namespace TruthTree.Text

def encode (t : Text) : List UInt8 := t.flatMap String.utf8EncodeChar

theorem encode_cons (c : Char) (t : Text) : encode (c :: t) = String.utf8EncodeChar c ++ encode t :=
  List.flatMap_cons

/-- The bytes that complete a character, one for each range that is due, from the bits of those before. -/
inductive Completes : Nat → List (Nat × Nat) → List UInt8 → Nat → Prop
  | done {code whole : Nat} (all : code = whole) : Completes code [] [] whole
  | byte {code low high whole : Nat} {byte : UInt8} {later : List (Nat × Nat)} {more : List UInt8}
      (hlow : low ≤ byte.toNat) (hhigh : byte.toNat ≤ high)
      (rest : Completes (code * 64 + (byte.toNat - 0x80)) later more whole) :
      Completes code ((low, high) :: later) (byte :: more) whole

theorem Completes.of_none_due {code whole : Nat} {more : List UInt8}
    (h : Completes code [] more whole) : more = [] ∧ code = whole := by
  cases h with
  | done all => exact ⟨rfl, all⟩

theorem decodeBlock_begun {code whole : Nat} {due : Nat × Nat} {later : List (Nat × Nat)}
    {more : List UInt8} (h : Completes code (due :: later) more whole) (position : Nat)
    (taken rest : List UInt8) :
    decodeBlock position (some ⟨taken, code, due, later⟩) (more ++ rest) =
      (decodeBlock (position + taken.length + more.length) none rest).map fun (text, left) =>
        (Char.ofNat whole :: text, left) := by
  induction later generalizing code due more taken with
  | nil =>
      cases h with
      | @byte _ low high _ byte _ more hlow hhigh last =>
          obtain ⟨rfl, rfl⟩ := last.of_none_due
          simp [decodeBlock, hlow, hhigh]
  | cons next later ih =>
      cases h with
      | @byte _ low high _ byte _ more hlow hhigh last =>
          have below := ih last (byte :: taken)
          have length : position + (byte :: taken).length + more.length =
              position + taken.length + (byte :: more).length := by
            simp only [List.length_cons]
            omega
          rw [length] at below
          simp [decodeBlock, hlow, hhigh, below]

theorem decodeBlock_cut {code whole : Nat} {due : Nat × Nat} {later : List (Nat × Nat)}
    {part more : List UInt8} (h : Completes code (due :: later) (part ++ more) whole)
    (unread : more ≠ []) (position : Nat) (taken : List UInt8) :
    decodeBlock position (some ⟨taken, code, due, later⟩) part = .ok ([], taken.reverse ++ part) := by
  induction part generalizing code due later taken with
  | nil => simp [decodeBlock]
  | cons byte part ih =>
      cases h with
      | @byte _ low high _ _ _ _ hlow hhigh rest =>
          cases later with
          | nil =>
              exact absurd (List.append_eq_nil_iff.mp rest.of_none_due.1).2 unread
          | cons next later =>
              have below := ih rest (byte :: taken)
              simp [decodeBlock, hlow, hhigh, below]

theorem Completes.next {code low high whole n : Nat} {later : List (Nat × Nat)} {more : List UInt8}
    (hlow : low ≤ n % 64 + 0x80) (hhigh : n % 64 + 0x80 ≤ high)
    (rest : Completes (code * 64 + n % 64) later more whole) :
    Completes code ((low, high) :: later) (UInt8.ofNat (n % 64 + 0x80) :: more) whole := by
  have byte : (UInt8.ofNat (n % 64 + 0x80)).toNat = n % 64 + 0x80 :=
    UInt8.toNat_ofNat_of_lt' (show _ < 256 by omega)
  refine .byte (by rwa [byte]) (by rwa [byte]) ?_
  rwa [byte, Nat.add_sub_cancel]

/-- The first byte of a character announces the bytes after it, and they complete its code. -/
def Announced (bytes : List UInt8) (whole : Nat) : Prop :=
  ∃ byte more code ranges, bytes = byte :: more ∧ lead? byte = some (code, ranges) ∧
    Completes code ranges more whole

theorem announced_one {v : Nat} (h : v ≤ 0x7F) : Announced [UInt8.ofNat v] v := by
  have byte : (UInt8.ofNat v).toNat = v := UInt8.toNat_ofNat_of_lt' (show _ < 256 by omega)
  refine ⟨_, _, v, [], rfl, ?_, .done rfl⟩
  rw [lead?, byte, if_pos (by omega)]

theorem announced_two {v : Nat} (low : 0x7F < v) (high : v ≤ 0x7FF) :
    Announced [UInt8.ofNat (v / 64 % 32 + 0xC0), UInt8.ofNat (v % 64 + 0x80)] v := by
  have byte : (UInt8.ofNat (v / 64 % 32 + 0xC0)).toNat = v / 64 % 32 + 0xC0 :=
    UInt8.toNat_ofNat_of_lt' (show _ < 256 by omega)
  refine ⟨_, _, v / 64, [(0x80, 0xBF)], rfl, ?_, .next (by omega) (by omega) (.done (by omega))⟩
  rw [lead?, byte]
  grind

theorem announced_three {v : Nat} (low : 0x7FF < v) (high : v ≤ 0xFFFF)
    (valid : v < 0xD800 ∨ 0xDFFF < v) :
    Announced [UInt8.ofNat (v / 4096 % 16 + 0xE0), UInt8.ofNat (v / 64 % 64 + 0x80),
      UInt8.ofNat (v % 64 + 0x80)] v := by
  have byte : (UInt8.ofNat (v / 4096 % 16 + 0xE0)).toNat = v / 4096 % 16 + 0xE0 :=
    UInt8.toNat_ofNat_of_lt' (show _ < 256 by omega)
  obtain ⟨first, last, lead, hfirst, hlast⟩ : ∃ first last,
      lead? (UInt8.ofNat (v / 4096 % 16 + 0xE0)) = some (v / 4096, [(first, last), (0x80, 0xBF)]) ∧
        first ≤ v / 64 % 64 + 0x80 ∧ v / 64 % 64 + 0x80 ≤ last := by
    rw [lead?, byte]
    by_cases short : v < 0x1000
    · exact ⟨0xA0, 0xBF, by grind, by omega, by omega⟩
    by_cases surrogate : v < 0xE000 ∧ 0xD000 ≤ v
    · exact ⟨0x80, 0x9F, by grind, by omega, by omega⟩
    · exact ⟨0x80, 0xBF, by grind, by omega, by omega⟩
  exact ⟨_, _, _, _, rfl, lead, .next hfirst hlast (.next (by omega) (by omega) (.done (by omega)))⟩

theorem announced_four {v : Nat} (low : 0xFFFF < v) (high : v < 0x110000) :
    Announced [UInt8.ofNat (v / 262144 % 8 + 0xF0), UInt8.ofNat (v / 4096 % 64 + 0x80),
      UInt8.ofNat (v / 64 % 64 + 0x80), UInt8.ofNat (v % 64 + 0x80)] v := by
  have byte : (UInt8.ofNat (v / 262144 % 8 + 0xF0)).toNat = v / 262144 % 8 + 0xF0 :=
    UInt8.toNat_ofNat_of_lt' (show _ < 256 by omega)
  obtain ⟨first, last, lead, hfirst, hlast⟩ : ∃ first last,
      lead? (UInt8.ofNat (v / 262144 % 8 + 0xF0)) =
          some (v / 262144, [(first, last), (0x80, 0xBF), (0x80, 0xBF)]) ∧
        first ≤ v / 4096 % 64 + 0x80 ∧ v / 4096 % 64 + 0x80 ≤ last := by
    rw [lead?, byte]
    by_cases short : v < 0x40000
    · exact ⟨0x90, 0xBF, by grind, by omega, by omega⟩
    by_cases long : 0x100000 ≤ v
    · exact ⟨0x80, 0x8F, by grind, by omega, by omega⟩
    · exact ⟨0x80, 0xBF, by grind, by omega, by omega⟩
  exact ⟨_, _, _, _, rfl, lead, .next hfirst hlast
    (.next (by omega) (by omega) (.next (by omega) (by omega) (.done (by omega))))⟩

theorem announced_char (c : Char) : Announced (String.utf8EncodeChar c) c.toNat := by
  have valid : c.toNat < 0xD800 ∨ 0xDFFF < c.toNat ∧ c.toNat < 0x110000 := c.valid
  simp only [String.utf8EncodeChar, Char.toNat_val]
  split_ifs with one two three
  · exact announced_one one
  · exact announced_two (by omega) two
  · exact announced_three (by omega) three (by omega)
  · exact announced_four (by omega) (by omega)

theorem decodeBlock_char (c : Char) (position : Nat) (rest : List UInt8) :
    decodeBlock position none (String.utf8EncodeChar c ++ rest) =
      (decodeBlock (position + (String.utf8EncodeChar c).length) none rest).map fun (text, left) =>
        (c :: text, left) := by
  obtain ⟨byte, more, code, ranges, bytes, lead, completes⟩ := announced_char c
  rw [bytes, List.cons_append]
  cases ranges with
  | nil =>
      obtain ⟨rfl, rfl⟩ := completes.of_none_due
      simp [decodeBlock, lead, Char.ofNat_toNat]
  | cons due later =>
      have begun := decodeBlock_begun completes position [byte] rest
      rw [Char.ofNat_toNat] at begun
      have length : position + [byte].length + more.length = position + (byte :: more).length := by
        simp only [List.length_cons, List.length_nil]
        omega
      rw [decodeBlock, lead, ← length]
      exact begun

theorem decodeBlock_part {c : Char} {part more : List UInt8}
    (bytes : String.utf8EncodeChar c = part ++ more) (unread : more ≠ []) (position : Nat) :
    decodeBlock position none part = .ok ([], part) := by
  cases part with
  | nil => rfl
  | cons byte part =>
      obtain ⟨first, rest, code, ranges, split, lead, completes⟩ := announced_char c
      rw [bytes, List.cons_append] at split
      obtain ⟨rfl, rfl⟩ := List.cons.inj split
      rw [decodeBlock, lead]
      cases ranges with
      | nil => exact absurd (List.append_eq_nil_iff.mp completes.of_none_due.1).2 unread
      | cons due later => exact decodeBlock_cut completes unread position [byte]

/-- The bytes before those of a text that are left over from a block: none, or not all of the first
character. -/
def Leftover (part : List UInt8) (t : Text) : Prop :=
  part = [] ∨ ∃ c later more, t = c :: later ∧ String.utf8EncodeChar c = part ++ more ∧ more ≠ []

theorem cut_or_whole {c : Char} {t : Text} {front back : List UInt8}
    (bytes : front ++ back = encode (c :: t)) :
    (∃ more, String.utf8EncodeChar c = front ++ more ∧ more ≠ []) ∨
      ∃ more, front = String.utf8EncodeChar c ++ more ∧ more ++ back = encode t := by
  rw [encode_cons] at bytes
  rcases List.append_eq_append_iff.mp bytes with ⟨more, char, rest⟩ | ⟨more, longer, rest⟩
  · cases more with
    | nil => exact .inr ⟨[], by rw [char, List.append_nil, List.append_nil], rest⟩
    | cons byte more => exact .inl ⟨byte :: more, char, List.cons_ne_nil _ _⟩
  · exact .inr ⟨more, longer, rest.symm⟩

theorem exists_decodeBlock {t : Text} {front back : List UInt8} (bytes : front ++ back = encode t)
    (position : Nat) :
    ∃ read part later, decodeBlock position none front = .ok (read, part) ∧ t = read ++ later ∧
      part ++ back = encode later ∧ Leftover part later := by
  induction t generalizing front position with
  | nil =>
      obtain ⟨rfl, rfl⟩ := List.append_eq_nil_iff.mp bytes
      exact ⟨[], [], [], rfl, rfl, rfl, .inl rfl⟩
  | cons c t ih =>
      rcases cut_or_whole bytes with ⟨more, char, unread⟩ | ⟨more, rfl, rest⟩
      · exact ⟨[], front, c :: t, decodeBlock_part char unread position, rfl, bytes,
          .inr ⟨c, t, more, rfl, char, unread⟩⟩
      · obtain ⟨read, part, later, decoded, rfl, left, leftover⟩ :=
          ih rest (position + (String.utf8EncodeChar c).length)
        refine ⟨c :: read, part, later, ?_, rfl, left, leftover⟩
        rw [decodeBlock_char, decoded]
        rfl

theorem Leftover.at_end {part : List UInt8} {t : Text} (h : Leftover part t) (bytes : part = encode t) :
    part = [] ∧ t = [] := by
  rcases h with rfl | ⟨c, later, more, rfl, char, unread⟩
  · refine ⟨rfl, ?_⟩
    cases t with
    | nil => rfl
    | cons c t =>
        obtain ⟨byte, rest, -, -, split, -⟩ := announced_char c
        rw [encode_cons, split] at bytes
        cases bytes
  · rw [encode_cons, char, List.append_assoc] at bytes
    have none := List.self_eq_append_right.mp bytes
    exact absurd (List.append_eq_nil_iff.mp none).1 unread

theorem decodeFrom_encode {unfinished bytes : List UInt8} {t : Text} (leftover : Leftover unfinished t)
    (h : unfinished ++ bytes = encode t) : decodeFrom unfinished bytes = .ok t := by
  have block : ∀ unfinished bytes : List UInt8,
      unfinished ++ bytes.take blockSize ++ bytes.drop blockSize = unfinished ++ bytes := by
    intro unfinished bytes
    rw [List.append_assoc, List.take_append_drop]
  fun_induction decodeFrom unfinished bytes generalizing t with
  | case1 unfinished finished =>
      rw [List.append_nil] at h
      rw [(leftover.at_end h).2]
  | case2 unfinished cut =>
      rw [List.append_nil] at h
      rw [(leftover.at_end h).1] at cut
      exact absurd rfl cut
  | case3 unfinished byte rest fault failed =>
      obtain ⟨read, part, later, decoded, -⟩ := exists_decodeBlock ((block _ _).trans h) 0
      rw [decoded] at failed
      cases failed
  | case4 unfinished byte rest text left decoded ih =>
      obtain ⟨read, part, later, decoded', rfl, bytes, leftover⟩ :=
        exists_decodeBlock ((block _ _).trans h) 0
      rw [decoded] at decoded'
      cases decoded'
      rw [ih leftover bytes]
      rfl

theorem decode_encode (t : Text) : decode (encode t) = .ok t :=
  decodeFrom_encode (.inl rfl) rfl

end TruthTree.Text
