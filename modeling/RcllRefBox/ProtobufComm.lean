import Mathlib.Data.List.Basic

/-! # The protobuf directories

`LLSFRefBox::setup_protobuf_comm` reads the list `/llsfrb/comm/protobuf-dirs`, replaces in
each entry the first `@BASEDIR@`, `@RESDIR@`, `@CONFDIR@` and `@SHAREDIR@` by the directory
the build fixes, and appends a `'/'` to the entry when the byte it tests is not one. That
byte is `proto_dirs[i][proto_dirs.size() - 1]`: the one at the position given by the number
of entries, not the entry's last. `std::string::operator[]` answers the terminating `'\0'`
at `size()` and is undefined past it, so an entry shorter than the number of entries less one
is read out of bounds (`normalizeProtoDirs_isSome_iff`), and with one entry the test looks at
the entry's first byte (`protobuf_dir_checks_wrong_index`).

A `std::string` is a sequence of bytes, and `size()`, `find` and `replace` count bytes. The
entries are kept as characters, and the test reads their UTF-8 encoding (`utf8Bytes`). The
substitution is done on the characters: the placeholders are ASCII, and an ASCII byte never
occurs inside the encoding of another character, so `find` and `replace` on the bytes give
the encoding of the substitution on the characters (`utf8Bytes_substituteDirs`).
-/

namespace RcllRefBox

structure Directories where
  basedir : String
  resdir : String
  confdir : String
  sharedir : String

def stringFind {α : Type} [BEq α] (pattern : List α) : List α → Option Nat
  | [] => if pattern.isPrefixOf [] then some 0 else none
  | c :: rest =>
    if pattern.isPrefixOf (c :: rest) then some 0 else (stringFind pattern rest).map (· + 1)

def replaceAt {α : Type} [BEq α] (s placeholder : List α) (count : Nat) (dir : List α) : List α :=
  match stringFind placeholder s with
  | some pos => s.take pos ++ dir ++ s.drop (pos + count)
  | none => s

/-- The four replacements of the loop body, in the source's order and with its lengths, on
the characters of an entry. -/
def substituteDirs (dirs : Directories) (entry : List Char) : List Char :=
  let entry := replaceAt entry "@BASEDIR@".toList 9 dirs.basedir.toList
  let entry := replaceAt entry "@RESDIR@".toList 8 dirs.resdir.toList
  let entry := replaceAt entry "@CONFDIR@".toList 9 dirs.confdir.toList
  replaceAt entry "@SHAREDIR@".toList 10 dirs.sharedir.toList

/-- The bytes `std::string` stores for the characters. -/
def utf8Bytes (s : List Char) : List UInt8 := s.flatMap String.utf8EncodeChar

/-- `s[pos]` on a `std::string`: the byte at `pos`, the terminating `'\0'` at
`pos = size()`, and undefined (`none`) past it. -/
def stringAt (s : List UInt8) (pos : Nat) : Option UInt8 :=
  match s[pos]? with
  | some c => some c
  | none => if pos = s.length then some 0 else none

/-- The loop body on `proto_dirs[i]` in a list of `count` entries: the replacements, then
`if (proto_dirs[i][proto_dirs.size() - 1] != '/') proto_dirs[i] += "/"`. -/
def normalizeProtoDir (dirs : Directories) (count : Nat) (entry : String) : Option String :=
  let substituted := substituteDirs dirs entry.toList
  (stringAt (utf8Bytes substituted) (count - 1)).map fun c =>
    if c ≠ '/'.toUInt8 then String.mk (substituted ++ ['/']) else String.mk substituted

def normalizeProtoDirs (dirs : Directories) (count : Nat) : List String → Option (List String)
  | [] => some []
  | entry :: rest => do
    let normalized ← normalizeProtoDir dirs count entry
    let others ← normalizeProtoDirs dirs count rest
    pure (normalized :: others)

/-- The directories `LLSFRefBox::setup_protobuf_comm` hands to the
`ClipsProtobufCommunicator`, from the entries of `/llsfrb/comm/protobuf-dirs`; an empty list
stands for the communicator's defaults, and `none` for undefined behaviour. -/
def setupProtobufComm (dirs : Directories) (protoDirs : List String) : Option (List String) :=
  if protoDirs.length > 0 then normalizeProtoDirs dirs protoDirs.length protoDirs
  else some protoDirs

/-- Modelled from the spec: each entry with its placeholders replaced, and a single `'/'`
appended exactly when it does not already end with one. -/
def specProtobufDirs (dirs : Directories) (protoDirs : List String) : List String :=
  protoDirs.map fun entry =>
    let substituted := substituteDirs dirs entry.toList
    if substituted.getLast? = some '/' then String.mk substituted
    else String.mk (substituted ++ ['/'])

/-! ## Bytes and characters -/

@[simp] theorem utf8Bytes_nil : utf8Bytes [] = [] := rfl

@[simp] theorem utf8Bytes_cons (c : Char) (s : List Char) :
    utf8Bytes (c :: s) = String.utf8EncodeChar c ++ utf8Bytes s := rfl

@[simp] theorem utf8Bytes_append (s t : List Char) : utf8Bytes (s ++ t) = utf8Bytes s ++ utf8Bytes t :=
  List.flatMap_append ..

section Ascii

theorem utf8EncodeChar_of_ascii {c : Char} (ascii : c.val ≤ 0x7f) :
    String.utf8EncodeChar c = [c.toUInt8] := by
  simp [String.utf8EncodeChar, ascii, Char.toUInt8]

theorem toNat_toUInt8_of_ascii {c : Char} (ascii : c.val ≤ 0x7f) : c.toUInt8.toNat = c.toNat := by
  have small : c.val.toNat ≤ 127 := by simpa [UInt32.le_def, BitVec.le_def] using ascii
  exact UInt8.toNat_ofNat_of_lt (by simp [UInt8.size]; omega)

theorem toUInt8_lt_of_ascii {c : Char} (ascii : c.val ≤ 0x7f) : c.toUInt8.toNat < 128 := by
  have small : c.val.toNat ≤ 127 := by simpa [UInt32.le_def, BitVec.le_def] using ascii
  rw [toNat_toUInt8_of_ascii ascii]
  exact Nat.lt_succ_of_le small

theorem toUInt8_eq_iff_of_ascii {a c : Char} (asciiA : a.val ≤ 0x7f) (asciiC : c.val ≤ 0x7f) :
    a.toUInt8 = c.toUInt8 ↔ a = c := by
  refine ⟨fun same => Char.ext (UInt32.toNat.inj ?_), fun same => same ▸ rfl⟩
  simpa [toNat_toUInt8_of_ascii asciiA, toNat_toUInt8_of_ascii asciiC] using congrArg UInt8.toNat same

theorem le_toNat_or {x y : UInt8} (high : y.toNat.testBit 7 = true) : 128 ≤ (x ||| y).toNat := by
  have bit : (x.toNat ||| y.toNat).testBit 7 = true := by simp [Nat.testBit_or, high]
  simpa [UInt8.toNat, BitVec.toNat_or] using Nat.testBit_implies_ge bit

theorem utf8EncodeChar_high {c : Char} (wide : ¬ c.val ≤ 0x7f) :
    ∀ b ∈ String.utf8EncodeChar c, 128 ≤ b.toNat := by
  unfold String.utf8EncodeChar
  simp only [wide, if_false]
  split_ifs <;> simp only [List.mem_cons, List.mem_singleton, List.not_mem_nil, or_false] <;>
    rintro b (rfl | rfl | rfl | rfl) <;> exact le_toNat_or (by decide)

theorem utf8EncodeChar_ne_nil (c : Char) : String.utf8EncodeChar c ≠ [] :=
  List.ne_nil_of_length_pos (String.length_utf8EncodeChar c ▸ c.utf8Size_pos)

theorem toUInt8_not_mem_utf8EncodeChar {a c : Char} (asciiA : a.val ≤ 0x7f) (wide : ¬ c.val ≤ 0x7f) :
    a.toUInt8 ∉ String.utf8EncodeChar c := fun mem =>
  absurd (utf8EncodeChar_high wide _ mem) (Nat.not_le.2 (toUInt8_lt_of_ascii asciiA))

variable {p : List Char} (ascii : ∀ c ∈ p, c.val ≤ 0x7f)
include ascii

theorem utf8Bytes_of_ascii : utf8Bytes p = p.map Char.toUInt8 := by
  induction p with
  | nil => rfl
  | cons a p inductionHypothesis =>
    rw [utf8Bytes_cons, utf8EncodeChar_of_ascii (ascii a (.head _)),
      inductionHypothesis fun c mem => ascii c (.tail _ mem)]
    rfl

theorem length_utf8Bytes_of_ascii : (utf8Bytes p).length = p.length := by
  rw [utf8Bytes_of_ascii ascii, List.length_map]

theorem isPrefixOf_utf8Bytes (s : List Char) : (utf8Bytes p).isPrefixOf (utf8Bytes s) = p.isPrefixOf s := by
  induction p generalizing s with
  | nil => simp [List.isPrefixOf]
  | cons a p inductionHypothesis =>
    have asciiA := ascii a (.head _)
    have rest := inductionHypothesis fun c mem => ascii c (.tail _ mem)
    rw [utf8Bytes_cons, utf8EncodeChar_of_ascii asciiA]
    cases s with
    | nil => rfl
    | cons c s =>
      by_cases asciiC : c.val ≤ 0x7f
      · have sameByte : (a.toUInt8 == c.toUInt8) = (a == c) := by
          rw [Bool.eq_iff_iff, beq_iff_eq, beq_iff_eq, toUInt8_eq_iff_of_ascii asciiA asciiC]
        simp only [utf8Bytes_cons, utf8EncodeChar_of_ascii asciiC, List.singleton_append,
          List.isPrefixOf, rest, sameByte]
      · obtain ⟨b, bs, encoded⟩ := List.exists_cons_of_ne_nil (utf8EncodeChar_ne_nil c)
        have differ : a.toUInt8 ≠ b := fun same =>
          toUInt8_not_mem_utf8EncodeChar asciiA asciiC (by rw [encoded, same]; exact .head _)
        have other : a ≠ c := fun same => asciiC (same ▸ asciiA)
        simp only [utf8Bytes_cons, encoded, List.cons_append, List.isPrefixOf, beq_false_of_ne differ,
          beq_false_of_ne other, Bool.false_and]

end Ascii

theorem stringFind_append_of_ne {b : UInt8} {bs : List UInt8} :
    ∀ (skipped rest : List UInt8), (∀ x ∈ skipped, x ≠ b) →
      stringFind (b :: bs) (skipped ++ rest) = (stringFind (b :: bs) rest).map (· + skipped.length)
  | [], rest, _ => by simp
  | x :: skipped, rest, other => by
    have differ : (b == x) = false := beq_false_of_ne fun same => other x (.head _) same.symm
    rw [List.cons_append, stringFind, List.isPrefixOf, differ, Bool.false_and, if_neg Bool.false_ne_true,
      stringFind_append_of_ne skipped rest fun y mem => other y (.tail _ mem), Option.map_map]
    simp only [List.length_cons]
    congr 1

theorem prefix_of_stringFind {α : Type} [BEq α] [LawfulBEq α] {pattern : List α} :
    ∀ {s : List α} {pos : Nat}, stringFind pattern s = some pos → pattern <+: s.drop pos
  | [], pos, found => by
    unfold stringFind at found
    split at found <;> cases found
    exact List.isPrefixOf_iff_prefix.1 ‹_›
  | c :: s, pos, found => by
    unfold stringFind at found
    split at found
    · cases found
      exact List.isPrefixOf_iff_prefix.1 ‹_›
    · obtain ⟨later, found', rfl⟩ := Option.map_eq_some'.1 found
      rw [List.drop_succ_cons]
      exact prefix_of_stringFind found'

section Ascii

variable {p : List Char} (ascii : ∀ c ∈ p, c.val ≤ 0x7f) (nonempty : p ≠ [])
include ascii nonempty

/-- `find` of an ASCII pattern on the bytes answers the byte offset of `find` on the
characters. -/
theorem stringFind_utf8Bytes :
    ∀ s : List Char, stringFind (utf8Bytes p) (utf8Bytes s) =
      (stringFind p s).map fun pos => (utf8Bytes (s.take pos)).length
  | [] => by
    have prefixNil := isPrefixOf_utf8Bytes ascii []
    rw [utf8Bytes_nil] at prefixNil
    simp only [utf8Bytes_nil, stringFind, prefixNil]
    split <;> rfl
  | c :: s => by
    have inductionHypothesis := stringFind_utf8Bytes s
    have prefixHere := isPrefixOf_utf8Bytes ascii (c :: s)
    by_cases asciiC : c.val ≤ 0x7f
    · rw [utf8Bytes_cons, utf8EncodeChar_of_ascii asciiC, List.singleton_append] at prefixHere ⊢
      rw [stringFind, stringFind, prefixHere, inductionHypothesis]
      split
      · rfl
      · simp only [Option.map_map]
        congr 1
        funext pos
        simp [utf8EncodeChar_of_ascii asciiC, Nat.add_comm]
    · obtain ⟨a, rest, rfl⟩ := List.exists_cons_of_ne_nil nonempty
      have asciiA := ascii a (.head _)
      have notHere : (a :: rest).isPrefixOf (c :: s) = false := by
        simp only [List.isPrefixOf, beq_false_of_ne fun same : a = c => asciiC (same ▸ asciiA),
          Bool.false_and]
      rw [utf8Bytes_of_ascii ascii, List.map_cons] at inductionHypothesis ⊢
      rw [utf8Bytes_cons, stringFind_append_of_ne _ _ fun x mem same =>
          toUInt8_not_mem_utf8EncodeChar asciiA asciiC (by rwa [← same]), inductionHypothesis, stringFind, notHere, if_neg Bool.false_ne_true, Option.map_map,
        Option.map_map]
      congr 1
      funext pos
      simp [Nat.add_comm]

theorem utf8Bytes_replaceAt {count : Nat} (length : p.length = count) (s dir : List Char) :
    utf8Bytes (replaceAt s p count dir) = replaceAt (utf8Bytes s) (utf8Bytes p) count (utf8Bytes dir) := by
  unfold replaceAt
  rw [stringFind_utf8Bytes ascii nonempty s]
  cases found : stringFind p s with
  | none => rfl
  | some pos =>
    obtain ⟨after, split⟩ := prefix_of_stringFind found
    have whole : utf8Bytes s = utf8Bytes (s.take pos) ++ (utf8Bytes p ++ utf8Bytes after) := by
      rw [← utf8Bytes_append, split, ← utf8Bytes_append, List.take_append_drop]
    have rest : s.drop (pos + count) = after := by
      rw [← List.drop_drop, ← split, ← length, List.drop_left]
    simp only [Option.map_some', utf8Bytes_append, rest]
    rw [whole, List.take_left, ← List.append_assoc, List.drop_left' (by
      rw [List.length_append, length_utf8Bytes_of_ascii ascii, length])]

end Ascii

def substituteDirsBytes (dirs : Directories) (entry : List UInt8) : List UInt8 :=
  let entry := replaceAt entry (utf8Bytes "@BASEDIR@".toList) 9 (utf8Bytes dirs.basedir.toList)
  let entry := replaceAt entry (utf8Bytes "@RESDIR@".toList) 8 (utf8Bytes dirs.resdir.toList)
  let entry := replaceAt entry (utf8Bytes "@CONFDIR@".toList) 9 (utf8Bytes dirs.confdir.toList)
  replaceAt entry (utf8Bytes "@SHAREDIR@".toList) 10 (utf8Bytes dirs.sharedir.toList)

/-- The substitution on the characters is the one `std::string` does on the bytes. -/
theorem utf8Bytes_substituteDirs (dirs : Directories) (entry : List Char) :
    utf8Bytes (substituteDirs dirs entry) = substituteDirsBytes dirs (utf8Bytes entry) := by
  simp only [substituteDirs, substituteDirsBytes]
  rw [utf8Bytes_replaceAt, utf8Bytes_replaceAt, utf8Bytes_replaceAt, utf8Bytes_replaceAt] <;> decide

/-! ## Where the loop reads -/

theorem stringAt_isSome_iff (s : List UInt8) (pos : Nat) :
    (stringAt s pos).isSome ↔ pos ≤ s.length := by
  unfold stringAt
  split
  · rename_i found
    simpa using (List.getElem?_eq_some_iff.1 found).1.le
  · rename_i missing
    rw [List.getElem?_eq_none_iff] at missing
    split <;> simp_all
    omega

/-- The loop is defined exactly when no entry, once substituted, has fewer bytes than the
number of entries less one. -/
theorem normalizeProtoDirs_isSome_iff (dirs : Directories) (count : Nat) :
    ∀ protoDirs : List String, (normalizeProtoDirs dirs count protoDirs).isSome ↔
      ∀ entry ∈ protoDirs, count - 1 ≤ (utf8Bytes (substituteDirs dirs entry.toList)).length
  | [] => by simp [normalizeProtoDirs]
  | entry :: rest => by
    rw [List.forall_mem_cons, ← stringAt_isSome_iff, ← normalizeProtoDirs_isSome_iff dirs count rest]
    simp only [normalizeProtoDirs, normalizeProtoDir]
    cases stringAt (utf8Bytes (substituteDirs dirs entry.toList)) (count - 1) <;>
      cases normalizeProtoDirs dirs count rest <;> simp

example : setupProtobufComm ⟨"a", "b", "c", "d"⟩ ["é", "abc", "xyz"] = some ["é/", "abc/", "xyz/"] :=
  rfl

/-- The loop tests the byte at `proto_dirs.size() - 1` of each entry, not its last one.
With the single entry `/opt/msgs` it tests the leading `'/'` and appends nothing, where the
specification appends one; `msgs/` gets a second `'/'`; and with the two entries `""` and
`msgs/` the empty entry is read past its terminator. -/
theorem protobuf_dir_checks_wrong_index (dirs : Directories) :
    setupProtobufComm dirs ["/opt/msgs"] = some ["/opt/msgs"] ∧
      specProtobufDirs dirs ["/opt/msgs"] = ["/opt/msgs/"] ∧
      setupProtobufComm dirs ["msgs/"] = some ["msgs//"] ∧
      setupProtobufComm dirs ["", "msgs/"] = none :=
  ⟨rfl, rfl, rfl, rfl⟩

end RcllRefBox
