import Mathlib.Algebra.Order.BigOperators.Group.List
import Mathlib.Algebra.Order.Ring.Nat
import XStack.Data.Except

/-!
# Generated protobuf messages

The code that the protobuf compiler generates for a message type is a table of its fields, written
out three times: `merge_from` reads tags until the end of the input and has an arm for each field,
`compute_size` adds up the sizes of the fields, and `write_to_with_cached_sizes` writes them.  A
`Codec` is this table.  The functions of the runtime library that the generated code calls are
parameters (`Runtime`), with what is documented of them (`Runtime.Lawful`).

## Main definitions

* `Runtime`, `Runtime.Lawful` : the runtime library.
* `Shape`, `Field` : the code for a field, in the five shapes that it has.
* `Codec`, `Codec.mergeFrom`, `Codec.computeSize`, `Codec.writeTo` : a message type.
* `Codec.Path` : an input in pieces, and what reading it makes of a message.

## Main results

* `Codec.Lawful.length_writeTo` : the computed size is the length of what is written.
* `Codec.Lawful.parse_write` : a message that is written is parsed.
* `Codec.Lawful.parse_reordered` : also with its fields in another order, and with other fields.
-/

namespace XStack

namespace Protobuf

/-! ### The runtime library -/

/-- The types of the fields that are not messages; the value of an enumeration is its number. -/
inductive Kind where
  | uint32
  | uint64
  | int32
  | enum
  | bytes
  | string
  deriving DecidableEq

namespace Kind

/-- The values of a field. -/
abbrev Val : Kind → Type
  | uint32 => UInt32
  | uint64 => UInt64
  | int32 => Int32
  | enum => Int32
  | bytes => List UInt8
  | string => String

/-- The value of a field that is missing. -/
def default : (k : Kind) → k.Val
  | uint32 => 0
  | uint64 => 0
  | int32 => 0
  | enum => 0
  | bytes => []
  | string => ""

instance : (k : Kind) → DecidableEq k.Val
  | uint32 => inferInstanceAs (DecidableEq UInt32)
  | uint64 => inferInstanceAs (DecidableEq UInt64)
  | int32 => inferInstanceAs (DecidableEq Int32)
  | enum => inferInstanceAs (DecidableEq Int32)
  | bytes => inferInstanceAs (DecidableEq (List UInt8))
  | string => inferInstanceAs (DecidableEq String)

/-- The wire type: a varint, or bytes behind their length. -/
def wireType : Kind → ℕ
  | bytes | string => 2
  | _ => 0

end Kind

/-- The tag of a field. -/
def tagOf (number wireType : ℕ) : UInt32 := .ofNat (8 * number + wireType)

/-- The tag of a field whose tag takes one byte. -/
structure IsTag (tag : UInt32) (number wireType : ℕ) : Prop where
  tag_eq : tag = tagOf number wireType
  pos : 1 ≤ number
  le : number ≤ 15

instance (tag : UInt32) (number wireType : ℕ) : Decidable (IsTag tag number wireType) :=
  decidable_of_iff (tag = tagOf number wireType ∧ 1 ≤ number ∧ number ≤ 15)
    ⟨fun h => ⟨h.1, h.2.1, h.2.2⟩, fun h => ⟨h.tag_eq, h.pos, h.le⟩⟩

/-- The length that no message exceeds (`i32::MAX`). -/
def maxLen : ℕ := 0x7fffffff

/-- The runtime library, as the generated code uses it.  Inputs are the bytes that are left. -/
class Runtime (ε : outParam Type) where
  /-- `CodedInputStream::read_raw_tag_or_eof`. -/
  readTag : List UInt8 → Except ε (Option (UInt32 × List UInt8))
  /-- `CodedInputStream::read_uint32`, `read_bytes` and so on. -/
  read (k : Kind) : List UInt8 → Except ε (k.Val × List UInt8)
  /-- `CodedInputStream::read_message`. -/
  readMessage {M : Type} (new : M) (mergeFrom : M → List UInt8 → Except ε M) :
    List UInt8 → Except ε (M × List UInt8)
  /-- `rt::read_singular_message_into_field`. -/
  readMessageInto {M : Type} (new : M) (mergeFrom : M → List UInt8 → Except ε M)
    (field : Option M) : List UInt8 → Except ε (Option M × List UInt8)
  /-- `rt::read_unknown_or_skip_group`; the field is not kept. -/
  skip (tag : UInt32) : List UInt8 → Except ε (List UInt8)
  /-- `CodedOutputStream::write_uint32`, `write_bytes` and so on. -/
  write (k : Kind) (number : ℕ) : k.Val → List UInt8
  /-- `rt::write_message_field_with_cached_size`. -/
  writeMessage (number : ℕ) (cachedSize : UInt32) (body : List UInt8) : List UInt8
  /-- `rt::uint32_size`, `rt::bytes_size` and so on. -/
  size (k : Kind) (number : ℕ) : k.Val → ℕ
  /-- `rt::compute_raw_varint64_size`. -/
  varintSize : ℕ → ℕ
  /-- The error of `Message::check_initialized`. -/
  notInitialized : ε

/-- What is documented of the runtime library. -/
class Runtime.Lawful (ε : outParam Type) [Runtime ε] : Prop where
  /-- There is no tag at the end of the input. -/
  readTag_nil : Runtime.readTag ([] : List UInt8) = .ok none
  /-- A tag takes at least one byte. -/
  readTag_lt : ∀ {bytes rest : List UInt8} {tag : UInt32},
    Runtime.readTag bytes = .ok (some (tag, rest)) → rest.length < bytes.length
  read_le : ∀ {k : Kind} {bytes rest : List UInt8} {v : k.Val},
    Runtime.read k bytes = .ok (v, rest) → rest.length ≤ bytes.length
  readMessage_le : ∀ {M : Type} {new m : M} {mergeFrom : M → List UInt8 → Except ε M}
    {bytes rest : List UInt8},
    Runtime.readMessage new mergeFrom bytes = .ok (m, rest) → rest.length ≤ bytes.length
  readMessageInto_le : ∀ {M : Type} {new : M} {mergeFrom : M → List UInt8 → Except ε M}
    {field field' : Option M} {bytes rest : List UInt8},
    Runtime.readMessageInto new mergeFrom field bytes = .ok (field', rest) →
    rest.length ≤ bytes.length
  skip_le : ∀ {tag : UInt32} {bytes rest : List UInt8},
    Runtime.skip tag bytes = .ok rest → rest.length ≤ bytes.length
  /-- A value that has been written is read. -/
  read_write : ∀ (k : Kind) (number : ℕ) (v : k.Val) (rest : List UInt8),
    1 ≤ number → number ≤ 15 → Runtime.size k number v ≤ maxLen →
    ∃ bytes, Runtime.readTag (Runtime.write k number v ++ rest) =
        .ok (some (tagOf number k.wireType, bytes)) ∧
      Runtime.read k bytes = .ok (v, rest)
  /-- A message that has been written is parsed, if its cached size is its length. -/
  readMessage_write : ∀ (number : ℕ) (body rest : List UInt8),
    1 ≤ number → number ≤ 15 → body.length ≤ maxLen →
    ∃ bytes, Runtime.readTag (Runtime.writeMessage number (.ofNat body.length) body ++ rest) =
        .ok (some (tagOf number 2, bytes)) ∧
      ∀ {M : Type} (new : M) (mergeFrom : M → List UInt8 → Except ε M),
        Runtime.readMessage new mergeFrom bytes = (mergeFrom new body).map (·, rest)
  /-- A message field that is missing is read into as into a new message. -/
  readMessageInto_none : ∀ {M : Type} (new : M) (mergeFrom : M → List UInt8 → Except ε M)
    (bytes : List UInt8), Runtime.readMessageInto new mergeFrom none bytes =
      (Runtime.readMessage new mergeFrom bytes).map fun r => (some r.1, r.2)
  length_write : ∀ (k : Kind) (number : ℕ) (v : k.Val), 1 ≤ number → number ≤ 15 →
    Runtime.size k number v ≤ maxLen → (Runtime.write k number v).length = Runtime.size k number v
  length_writeMessage : ∀ (number : ℕ) (cachedSize : UInt32) (body : List UInt8),
    1 ≤ number → number ≤ 15 → (Runtime.writeMessage number cachedSize body).length =
      1 + Runtime.varintSize cachedSize.toNat + body.length

/-! ### Fields -/

/-- A part of a message, which can be read and set. -/
structure Lens (M α : Type) where
  /-- Read it. -/
  get : M → α
  /-- Set it. -/
  set : α → M → M
  get_set : ∀ a m, get (set a m) = a := by intros; rfl
  set_get : ∀ m, set (get m) m = m := by intros; rfl
  set_set : ∀ a b m, set a (set b m) = set a m := by intros; rfl

/-- The code that is generated for a field with contents in `α`. -/
structure Shape (ε α : Type) where
  /-- The contents in a new message. -/
  absent : α
  /-- The arm of `merge_from`, on the contents so far. -/
  read : α → List UInt8 → Except ε (α × List UInt8)
  /-- The part of `write_to_with_cached_sizes`. -/
  write : α → List UInt8
  /-- The part of `compute_size`. -/
  size : α → ℕ
  /-- What is written, value by value. -/
  pieces : α → List (List UInt8)

/-- A field of the messages `M`. -/
structure Field (ε M : Type) where
  /-- The type of its contents. -/
  α : Type
  /-- The tag that `merge_from` matches. -/
  tag : UInt32
  /-- The code for it. -/
  shape : Shape ε α
  /-- Where it is. -/
  lens : Lens M α

namespace Shape

variable {ε : Type} [Runtime ε]

/-- A value that may be missing. -/
def optional (k : Kind) (number : ℕ) : Shape ε (Option k.Val) where
  absent := none
  read _ is := do
    let (v, is) ← Runtime.read k is
    return (some v, is)
  write
    | some v => Runtime.write k number v
    | none => []
  size
    | some v => Runtime.size k number v
    | none => 0
  pieces a := a.toList.map (Runtime.write k number)

/-- A value that is not written if it is the default. -/
def implicit (k : Kind) (number : ℕ) : Shape ε k.Val where
  absent := k.default
  read _ is := Runtime.read k is
  write v := if v ≠ k.default then Runtime.write k number v else []
  size v := if v ≠ k.default then Runtime.size k number v else 0
  pieces v := if v ≠ k.default then [Runtime.write k number v] else []

/-- Any number of values. -/
def repeated (k : Kind) (number : ℕ) : Shape ε (List k.Val) where
  absent := []
  read vs is := do
    let (v, is) ← Runtime.read k is
    return (vs ++ [v], is)
  write vs := vs.flatMap (Runtime.write k number)
  size vs := (vs.map (Runtime.size k number)).sum
  pieces vs := vs.map (Runtime.write k number)

end Shape

/-! ### Message types -/

/-- A message type. -/
structure Codec (ε M : Type) where
  /-- `new`. -/
  new : M
  /-- The fields, in the order in which they are written. -/
  fields : List (Field ε M)
  /-- `is_initialized`. -/
  initialized : M → Bool := fun _ => true

/-- The arm of `merge_from` for a field. -/
def Field.read {ε M : Type} (f : Field ε M) (m : M) (is : List UInt8) :
    Except ε (M × List UInt8) := do
  let (a, is) ← f.shape.read (f.lens.get m) is
  return (f.lens.set a m, is)

namespace Codec

variable {ε M : Type} [Runtime ε] (c : Codec ε M)

/-- The `match` of `merge_from`. -/
def mergeField (m : M) (tag : UInt32) (is : List UInt8) : Except ε (M × List UInt8) :=
  match c.fields.find? (·.tag == tag) with
  | some f => f.read m is
  | none => do
    let is ← Runtime.skip tag is
    return (m, is)

/-- The loop of `merge_from`; the rounds bound it. -/
def mergeLoop : ℕ → M → List UInt8 → Except ε M
  | 0, m, _ => .ok m
  | rounds + 1, m, is => do
    match ← Runtime.readTag is with
    | some (tag, is) =>
      let (m, is) ← c.mergeField m tag is
      mergeLoop rounds m is
    | none => return m

/-- `merge_from`. -/
def mergeFrom (m : M) (is : List UInt8) : Except ε M := c.mergeLoop (is.length + 1) m is

/-- `compute_size`. -/
def computeSize (m : M) : ℕ := (c.fields.map fun f => f.shape.size (f.lens.get m)).sum

/-- `write_to_with_cached_sizes`. -/
def writeTo (m : M) : List UInt8 := c.fields.flatMap fun f => f.shape.write (f.lens.get m)

/-- What is written, field by field and value by value. -/
def pieces (m : M) : List (List UInt8) := c.fields.flatMap fun f => f.shape.pieces (f.lens.get m)

/-- `Message::write_to_bytes`. -/
def writeToBytes (m : M) : Except ε (List UInt8) :=
  if c.initialized m then .ok (c.writeTo m) else .error Runtime.notInitialized

/-- `Message::parse_from_bytes`. -/
def parseFromBytes (bytes : List UInt8) : Except ε M := do
  let m ← c.mergeFrom c.new bytes
  if c.initialized m then .ok m else .error Runtime.notInitialized

end Codec

namespace Shape

variable {ε N : Type} [Runtime ε] (c : Codec ε N) (number : ℕ)

/-- A message that may be missing. -/
def message : Shape ε (Option N) where
  absent := none
  read field is := Runtime.readMessageInto c.new c.mergeFrom field is
  write
    | some v => Runtime.writeMessage number (.ofNat (c.computeSize v)) (c.writeTo v)
    | none => []
  size
    | some v =>
      let len := c.computeSize v
      1 + Runtime.varintSize len + len
    | none => 0
  pieces a := a.toList.map fun v =>
    Runtime.writeMessage number (.ofNat (c.computeSize v)) (c.writeTo v)

/-- Any number of messages. -/
def messages : Shape ε (List N) where
  absent := []
  read vs is := do
    let (v, is) ← Runtime.readMessage c.new c.mergeFrom is
    return (vs ++ [v], is)
  write vs := vs.flatMap fun v =>
    Runtime.writeMessage number (.ofNat (c.computeSize v)) (c.writeTo v)
  size vs := (vs.map fun v =>
    let len := c.computeSize v
    1 + Runtime.varintSize len + len).sum
  pieces vs := vs.map fun v =>
    Runtime.writeMessage number (.ofNat (c.computeSize v)) (c.writeTo v)

end Shape

namespace Field

variable {ε M N : Type} [Runtime ε]

/-- A field with a value that may be missing. -/
def optional (k : Kind) (tag : UInt32) (number : ℕ) (lens : Lens M (Option k.Val)) : Field ε M :=
  ⟨_, tag, .optional k number, lens⟩

/-- A field with a value that is not written if it is the default. -/
def implicit (k : Kind) (tag : UInt32) (number : ℕ) (lens : Lens M k.Val) : Field ε M :=
  ⟨_, tag, .implicit k number, lens⟩

/-- A field with any number of values. -/
def repeated (k : Kind) (tag : UInt32) (number : ℕ) (lens : Lens M (List k.Val)) : Field ε M :=
  ⟨_, tag, .repeated k number, lens⟩

/-- A field with a message that may be missing. -/
def message (c : Codec ε N) (tag : UInt32) (number : ℕ) (lens : Lens M (Option N)) : Field ε M :=
  ⟨_, tag, .message c number, lens⟩

/-- A field with any number of messages. -/
def messages (c : Codec ε N) (tag : UInt32) (number : ℕ) (lens : Lens M (List N)) : Field ε M :=
  ⟨_, tag, .messages c number, lens⟩

end Field

/-! ### What the code for a field does -/

namespace Shape

variable {ε α : Type} [Runtime ε] {tag : UInt32} {s : Shape ε α} {a a' : α}
  {piece enc : List UInt8}

/-- In front of any input, `piece` has this tag, and takes the contents from `a` to `a'`. -/
def Takes (tag : UInt32) (s : Shape ε α) (a a' : α) (piece : List UInt8) : Prop :=
  ∀ rest, ∃ bytes, Runtime.readTag (piece ++ rest) = .ok (some (tag, bytes)) ∧
    s.read a bytes = .ok (a', rest)

/-- Pieces that take the contents from the first to the last. -/
inductive Steps (tag : UInt32) (s : Shape ε α) : α → α → List (List UInt8) → Prop
  | nil {a : α} : Steps tag s a a []
  | cons {a a' a'' : α} {piece : List UInt8} {pieces : List (List UInt8)} :
    s.Takes tag a a' piece → Steps tag s a' a'' pieces → Steps tag s a a'' (piece :: pieces)

/-- The code does what a field is for. -/
structure Lawful (tag : UInt32) (s : Shape ε α) : Prop where
  read_le : ∀ {a a' : α} {bytes rest : List UInt8},
    s.read a bytes = .ok (a', rest) → rest.length ≤ bytes.length
  write_eq : ∀ a : α, s.write a = (s.pieces a).flatten
  steps : ∀ {a : α}, s.size a ≤ maxLen → s.Steps tag s.absent a (s.pieces a)
  length_write : ∀ {a : α}, s.size a ≤ maxLen → (s.write a).length = s.size a

end Shape

/-- The code for a field does what the field is for. -/
def Field.Lawful {ε M : Type} [Runtime ε] (f : Field ε M) : Prop := f.shape.Lawful f.tag

/-! ### Shapes -/

namespace Shape

variable {ε : Type} [Runtime ε] {tag : UInt32} {number : ℕ}

theorem size_le_of_mem {α : Type*} (size : α → ℕ) {vs : List α} {v : α} {n : ℕ}
    (hsum : (vs.map size).sum ≤ n) (hv : v ∈ vs) : size v ≤ n :=
  (List.le_sum_of_mem (List.mem_map_of_mem hv)).trans hsum

theorem length_flatMap_eq {α : Type*} {w : α → List UInt8} {size : α → ℕ} {vs : List α}
    (h : ∀ v ∈ vs, (w v).length = size v) : (vs.flatMap w).length = (vs.map size).sum := by
  rw [List.length_flatMap, List.map_congr_left h]

/-- Values that are read one after the other are appended one after the other. -/
theorem steps_append {α : Type} {s : Shape ε (List α)} (w : α → List UInt8) {vs : List α}
    (h : ∀ v ∈ vs, ∀ us, s.Takes tag us (us ++ [v]) (w v)) (us : List α) :
    s.Steps tag us (us ++ vs) (vs.map w) := by
  induction vs generalizing us with
  | nil =>
    rw [List.append_nil]
    exact .nil
  | cons v vs ih =>
    have hvs := ih (fun v' hv' => h v' (List.mem_cons_of_mem v hv')) (us ++ [v])
    rw [List.append_assoc] at hvs
    exact .cons (h v List.mem_cons_self us) hvs

section Values

variable [Runtime.Lawful ε] {k : Kind}

theorem read_write (htag : IsTag tag number k.wireType) {v : k.Val}
    (hv : Runtime.size k number v ≤ maxLen) (rest : List UInt8) :
    ∃ bytes, Runtime.readTag (Runtime.write k number v ++ rest) = .ok (some (tag, bytes)) ∧
      Runtime.read k bytes = .ok (v, rest) := by
  rw [htag.tag_eq]
  exact Runtime.Lawful.read_write k number v rest htag.pos htag.le hv

theorem optional_takes (htag : IsTag tag number k.wireType) {v : k.Val}
    (hv : Runtime.size k number v ≤ maxLen) (a : Option k.Val) :
    (optional k number).Takes tag a (some v) (Runtime.write k number v) := by
  intro rest
  obtain ⟨bytes, hread, hvalue⟩ := read_write htag hv rest
  refine ⟨bytes, hread, ?_⟩
  show (Runtime.read k bytes >>= _) = _
  rw [hvalue]
  rfl

theorem optional_lawful (htag : IsTag tag number k.wireType) :
    (optional k number).Lawful tag where
  read_le h := by
    obtain ⟨⟨v, is⟩, hread, hpure⟩ := bind_eq_ok.1 h
    cases hpure
    exact Runtime.Lawful.read_le hread
  write_eq a := by
    rcases a with _ | v
    · rfl
    · exact List.flatten_singleton.symm
  steps {a} hsize := by
    rcases a with _ | v
    · exact .nil
    · exact .cons (optional_takes htag hsize none) .nil
  length_write {a} hsize := by
    rcases a with _ | v
    · rfl
    · exact Runtime.Lawful.length_write k number v htag.pos htag.le hsize

theorem implicit_takes (htag : IsTag tag number k.wireType) {v : k.Val}
    (hv : Runtime.size k number v ≤ maxLen) (a : k.Val) :
    (implicit k number).Takes tag a v (Runtime.write k number v) := fun rest =>
  read_write htag hv rest

theorem implicit_lawful (htag : IsTag tag number k.wireType) :
    (implicit k number).Lawful tag where
  read_le h := Runtime.Lawful.read_le h
  write_eq v := by
    simp only [implicit]
    split_ifs
    · exact List.flatten_singleton.symm
    · rfl
  steps {v} hsize := by
    simp only [implicit] at hsize ⊢
    split_ifs at hsize ⊢ with hdefault
    · exact .cons (implicit_takes htag hsize k.default) .nil
    · rw [not_not.1 hdefault]
      exact .nil
  length_write {v} hsize := by
    simp only [implicit] at hsize ⊢
    split_ifs at hsize ⊢
    · exact Runtime.Lawful.length_write k number v htag.pos htag.le hsize
    · rfl

theorem repeated_lawful (htag : IsTag tag number k.wireType) :
    (repeated k number).Lawful tag where
  read_le h := by
    obtain ⟨⟨v, is⟩, hread, hpure⟩ := bind_eq_ok.1 h
    cases hpure
    exact Runtime.Lawful.read_le hread
  write_eq _ := List.flatMap_def
  steps {vs} hsize := by
    refine steps_append (Runtime.write k number) (fun v hv us rest => ?_) []
    obtain ⟨bytes, hread, hvalue⟩ := read_write htag (size_le_of_mem _ hsize hv) rest
    refine ⟨bytes, hread, ?_⟩
    show (Runtime.read k bytes >>= _) = _
    rw [hvalue]
    rfl
  length_write hsize := length_flatMap_eq fun v hv =>
    Runtime.Lawful.length_write k number v htag.pos htag.le (size_le_of_mem _ hsize hv)

end Values

end Shape

/-! ### Messages -/

/-- Setting one part of a message leaves the other one alone. -/
structure Lens.Independent {M α β : Type} (l : Lens M α) (l' : Lens M β) : Prop where
  get_set : ∀ b m, l.get (l'.set b m) = l.get m := by intros; rfl
  get_set' : ∀ a m, l'.get (l.set a m) = l'.get m := by intros; rfl
  set_comm : ∀ a b m, l.set a (l'.set b m) = l'.set b (l.set a m) := by intros; rfl

theorem Lens.Independent.symm {M α β : Type} {l : Lens M α} {l' : Lens M β}
    (h : l.Independent l') : l'.Independent l :=
  ⟨h.get_set', h.get_set, fun b a m => (h.set_comm a b m).symm⟩

namespace Codec

variable {ε M : Type} [Runtime ε]

/-- Setting these fields to what they are in `m`, each of them absent when its turn comes, turns
`acc` into `m`. -/
def Copies (m : M) : List (Field ε M) → M → Prop
  | [], acc => acc = m
  | f :: fs, acc => f.lens.get acc = f.shape.absent ∧ Copies m fs (f.lens.set (f.lens.get m) acc)

/-- The fields are different parts of a message. -/
def Apart : List (Field ε M) → Prop
  | [] => True
  | f :: fs => (fs.Forall fun g => f.lens.Independent g.lens) ∧ Apart fs

/-- A table of fields that describes the messages. -/
structure Lawful (c : Codec ε M) : Prop where
  fields : c.fields.Forall Field.Lawful
  tags : (c.fields.map Field.tag).Nodup
  apart : Apart c.fields
  copies : ∀ m, Copies m c.fields c.new

variable {c : Codec ε M} {m acc acc' acc'' : M} {is is' : List UInt8} {tag : UInt32}
  {piece : List UInt8} {pieces pieces' : List (List UInt8)}

namespace Lawful

variable (hc : c.Lawful)
include hc

theorem shape_lawful {f : Field ε M} (hf : f ∈ c.fields) : f.shape.Lawful f.tag :=
  List.forall_iff_forall_mem.1 hc.fields f hf

theorem find_tag {f : Field ε M} (hf : f ∈ c.fields) :
    c.fields.find? (·.tag == f.tag) = some f := by
  have htags := hc.tags
  generalize c.fields = fs at hf htags
  induction fs with
  | nil => cases hf
  | cons g fs ih =>
    rw [List.map_cons, List.nodup_cons] at htags
    rcases List.mem_cons.1 hf with rfl | hf
    · simp
    · have hne : (g.tag == f.tag) = false := by
        rw [beq_eq_false_iff_ne]
        exact fun heq => htags.1 (heq ▸ List.mem_map_of_mem hf)
      rw [List.find?_cons, hne]
      exact ih hf htags.2

theorem field_unique {f g : Field ε M} (hf : f ∈ c.fields) (hg : g ∈ c.fields)
    (htag : f.tag = g.tag) : f = g :=
  Option.some.inj ((hc.find_tag hf).symm.trans (htag ▸ hc.find_tag hg))

theorem independent {f g : Field ε M} (hf : f ∈ c.fields) (hg : g ∈ c.fields)
    (hne : f.tag ≠ g.tag) : f.lens.Independent g.lens := by
  have hapart := hc.apart
  generalize c.fields = fs at hf hg hapart
  induction fs with
  | nil => cases hf
  | cons f' fs ih =>
    have hforall := List.forall_iff_forall_mem.1 hapart.1
    rcases List.mem_cons.1 hf with rfl | hf'
    · rcases List.mem_cons.1 hg with rfl | hg'
      · exact absurd rfl hne
      · exact hforall g hg'
    · rcases List.mem_cons.1 hg with rfl | hg'
      · exact (hforall f hf').symm
      · exact ih hf' hg' hapart.2

theorem mergeField_eq {f : Field ε M} (hf : f ∈ c.fields) :
    c.mergeField m f.tag is = f.read m is := by
  rw [mergeField, hc.find_tag hf]

variable [Runtime.Lawful ε]

theorem mergeField_le (h : c.mergeField m tag is = .ok (acc, is')) : is'.length ≤ is.length := by
  rw [mergeField] at h
  split at h
  · next f hfind =>
    obtain ⟨⟨a, is₁⟩, hread, hpure⟩ := bind_eq_ok.1 h
    cases hpure
    exact (hc.shape_lawful (List.mem_of_find?_eq_some hfind)).read_le hread
  · obtain ⟨is₁, hskip, hpure⟩ := bind_eq_ok.1 h
    cases hpure
    exact Runtime.Lawful.skip_le hskip

/-- There are enough rounds for every field of the input. -/
theorem mergeLoop_eq {rounds : ℕ} (h : is.length < rounds) :
    c.mergeLoop rounds m is = c.mergeFrom m is := by
  suffices ∀ (n rounds : ℕ) (m : M) (is : List UInt8), is.length < n → is.length < rounds →
      c.mergeLoop n m is = c.mergeLoop rounds m is from
    this rounds (is.length + 1) m is h (Nat.lt_succ_self _)
  intro n
  induction n with
  | zero => intro rounds m is hn; exact absurd hn (Nat.not_lt_zero _)
  | succ n ih =>
    intro rounds m is hn hrounds
    obtain ⟨rounds, rfl⟩ := Nat.exists_eq_succ_of_ne_zero (Nat.ne_of_gt (Nat.zero_lt_of_lt hrounds))
    rw [mergeLoop, mergeLoop]
    rcases htag : Runtime.readTag is with e | _ | ⟨tag, is₁⟩
    · rfl
    · rfl
    · have hlt := Runtime.Lawful.readTag_lt htag
      show (c.mergeField m tag is₁ >>= _) = (c.mergeField m tag is₁ >>= _)
      rcases hfield : c.mergeField m tag is₁ with e | ⟨m', is₂⟩
      · rfl
      · have hle := hc.mergeField_le hfield
        exact ih rounds m' is₂ (by omega) (by omega)

theorem mergeFrom_tag (htag : Runtime.readTag is = .ok (some (tag, is'))) :
    c.mergeFrom m is = c.mergeField m tag is' >>= fun r => c.mergeFrom r.1 r.2 := by
  have hlt := Runtime.Lawful.readTag_lt htag
  rw [mergeFrom, mergeLoop, htag]
  show (c.mergeField m tag is' >>= _) = (c.mergeField m tag is' >>= _)
  rcases hfield : c.mergeField m tag is' with e | ⟨m', is₂⟩
  · rfl
  · have hle := hc.mergeField_le hfield
    exact hc.mergeLoop_eq (by omega)

end Lawful

theorem mergeFrom_nil [Runtime.Lawful ε] : c.mergeFrom m [] = .ok m := by
  rw [mergeFrom, mergeLoop, Runtime.Lawful.readTag_nil]
  rfl

/-! ### Inputs made of pieces -/

/-- In front of any input, the piece is one field that the messages do not have. -/
def Unknown (c : Codec ε M) (piece : List UInt8) : Prop :=
  ∀ rest, ∃ tag bytes, Runtime.readTag (piece ++ rest) = .ok (some (tag, bytes)) ∧
    tag ∉ c.fields.map Field.tag ∧ Runtime.skip tag bytes = .ok rest

/-- An input in pieces, each of them one field, and what reading it makes of a message. -/
inductive Path (c : Codec ε M) : M → M → List (List UInt8) → Prop
  | nil {acc : M} : Path c acc acc []
  | field {f : Field ε M} {acc acc' : M} {a : f.α} {piece : List UInt8}
    {pieces : List (List UInt8)} (hf : f ∈ c.fields)
    (htakes : f.shape.Takes f.tag (f.lens.get acc) a piece)
    (hrest : Path c (f.lens.set a acc) acc' pieces) : Path c acc acc' (piece :: pieces)
  | unknown {acc acc' : M} {piece : List UInt8} {pieces : List (List UInt8)}
    (hunknown : c.Unknown piece) (hrest : Path c acc acc' pieces) :
    Path c acc acc' (piece :: pieces)

namespace Path

theorem append_iff :
    c.Path acc acc'' (pieces ++ pieces') ↔ ∃ acc', c.Path acc acc' pieces ∧
      c.Path acc' acc'' pieces' := by
  constructor
  · induction pieces generalizing acc with
    | nil => exact fun h => ⟨acc, .nil, h⟩
    | cons piece pieces ih =>
      rintro (_ | ⟨hf, htakes, hrest⟩ | ⟨hunknown, hrest⟩)
      · obtain ⟨acc', hpieces, hpieces'⟩ := ih hrest
        exact ⟨acc', .field hf htakes hpieces, hpieces'⟩
      · obtain ⟨acc', hpieces, hpieces'⟩ := ih hrest
        exact ⟨acc', .unknown hunknown hpieces, hpieces'⟩
  · rintro ⟨acc', h, h'⟩
    induction h with
    | nil => exact h'
    | field hf htakes _ ih => exact .field hf htakes (ih h')
    | unknown hunknown _ ih => exact .unknown hunknown (ih h')

/-- Reading the pieces. -/
theorem mergeFrom_eq [Runtime.Lawful ε] (hc : c.Lawful) (h : c.Path acc acc' pieces) :
    c.mergeFrom acc pieces.flatten = .ok acc' := by
  induction h with
  | nil => exact mergeFrom_nil
  | @field f acc acc' a piece pieces hf htakes _ ih =>
    obtain ⟨bytes, htag, hread⟩ := htakes pieces.flatten
    have hfield : f.read acc bytes = .ok (f.lens.set a acc, pieces.flatten) := by
      rw [Field.read, hread]
      rfl
    rw [List.flatten_cons, hc.mergeFrom_tag htag, hc.mergeField_eq hf, hfield]
    exact ih
  | @unknown acc acc' piece pieces hunknown _ ih =>
    obtain ⟨tag, bytes, htag, hnone, hskip⟩ := hunknown pieces.flatten
    have hfind : c.fields.find? (·.tag == tag) = none := by
      rw [List.find?_eq_none]
      intro f hf heq
      exact hnone (beq_iff_eq.1 heq ▸ List.mem_map_of_mem hf)
    rw [List.flatten_cons, hc.mergeFrom_tag htag, mergeField, hfind, hskip]
    exact ih

theorem of_steps {f : Field ε M} (hf : f ∈ c.fields) {a b : f.α}
    (h : f.shape.Steps f.tag a b pieces) (hacc : f.lens.get acc = a) :
    c.Path acc (f.lens.set b acc) pieces := by
  induction h generalizing acc with
  | nil =>
    rw [← hacc, f.lens.set_get]
    exact .nil
  | @cons a a' b piece pieces htakes _ ih =>
    have hpieces := ih (f.lens.get_set a' acc)
    rw [f.lens.set_set] at hpieces
    exact .field hf (hacc ▸ htakes) hpieces

end Path

/-! ### What is written is read -/

omit [Runtime ε] in
theorem size_field_le {f : Field ε M} (hsize : c.computeSize m ≤ maxLen) (hf : f ∈ c.fields) :
    f.shape.size (f.lens.get m) ≤ maxLen :=
  Shape.size_le_of_mem (fun f : Field ε M => f.shape.size (f.lens.get m)) hsize hf

namespace Lawful

variable (hc : c.Lawful) (hsize : c.computeSize m ≤ maxLen)
include hc hsize

/-- **The computed size is the length of what is written.** -/
theorem length_writeTo : (c.writeTo m).length = c.computeSize m := by
  rw [writeTo, computeSize]
  exact Shape.length_flatMap_eq fun _ hf =>
    (hc.shape_lawful hf).length_write (size_field_le hsize hf)

/-- What is written makes the message of a new one. -/
theorem path_pieces : c.Path c.new m (c.pieces m) := by
  suffices ∀ (fs : List (Field ε M)) (acc : M), fs ⊆ c.fields → Copies m fs acc →
      c.Path acc m (fs.flatMap fun f => f.shape.pieces (f.lens.get m)) from
    this c.fields c.new (List.Subset.refl _) (hc.copies m)
  intro fs
  induction fs with
  | nil =>
    rintro acc - rfl
    exact .nil
  | cons f fs ih =>
    rintro acc hsub ⟨habsent, hcopies⟩
    have hf : f ∈ c.fields := hsub List.mem_cons_self
    have hsteps := (hc.shape_lawful hf).steps (size_field_le hsize hf)
    exact Path.append_iff.2 ⟨_, .of_steps hf hsteps habsent,
      ih _ (fun g hg => hsub (List.mem_cons_of_mem f hg)) hcopies⟩

omit hsize in
theorem writeTo_eq : c.writeTo m = (c.pieces m).flatten := by
  rw [writeTo, pieces, List.flatMap_def, List.flatMap_def, List.flatten_flatten, List.map_map]
  congr 1
  exact List.map_congr_left fun f hf => (hc.shape_lawful hf).write_eq _

/-- **What is written is read back.** -/
theorem mergeFrom_writeTo [Runtime.Lawful ε] : c.mergeFrom c.new (c.writeTo m) = .ok m := by
  rw [hc.writeTo_eq, (hc.path_pieces hsize).mergeFrom_eq hc]

/-- **A message that is written is parsed.** -/
theorem parse_write [Runtime.Lawful ε] {bytes : List UInt8} (h : c.writeToBytes m = .ok bytes) :
    c.parseFromBytes bytes = .ok m ∧ bytes.length = c.computeSize m := by
  rw [writeToBytes] at h
  split_ifs at h with hinitialized
  cases h
  refine ⟨?_, hc.length_writeTo hsize⟩
  rw [parseFromBytes, hc.mergeFrom_writeTo hsize]
  exact if_pos hinitialized

end Lawful

/-! ### The order of the fields -/

/-- In front of any input, the piece has this tag. -/
def HasTag (tag : UInt32) (piece : List UInt8) : Prop :=
  ∀ rest, ∃ bytes, Runtime.readTag (piece ++ rest) = .ok (some (tag, bytes))

/-- The same fields, those with the same tag in the same order, and perhaps some more that the
messages do not have. -/
inductive Reordered (c : Codec ε M) : List (List UInt8) → List (List UInt8) → Prop
  | refl (pieces : List (List UInt8)) : Reordered c pieces pieces
  | swap {f g : Field ε M} {p q : List UInt8} {l r : List (List UInt8)} (hf : f ∈ c.fields)
    (hg : g ∈ c.fields) (hne : f.tag ≠ g.tag) (hp : HasTag f.tag p) (hq : HasTag g.tag q) :
    Reordered c (l ++ p :: q :: r) (l ++ q :: p :: r)
  | insert {p : List UInt8} {l r : List (List UInt8)} (hp : c.Unknown p) :
    Reordered c (l ++ r) (l ++ p :: r)
  | trans {pieces pieces' pieces'' : List (List UInt8)} (h : Reordered c pieces pieces')
    (h' : Reordered c pieces' pieces'') : Reordered c pieces pieces''

namespace Path

variable {f g : Field ε M} {p q : List UInt8}

theorem of_hasTag (hc : c.Lawful) (hf : f ∈ c.fields) (hp : HasTag f.tag p)
    (h : c.Path acc acc' (p :: pieces)) :
    ∃ a, f.shape.Takes f.tag (f.lens.get acc) a p ∧ c.Path (f.lens.set a acc) acc' pieces := by
  obtain ⟨bytes, htag⟩ := hp []
  rcases h with _ | ⟨hg, htakes, hrest⟩ | ⟨hunknown, hrest⟩
  · obtain ⟨bytes', htag', -⟩ := htakes []
    rw [htag] at htag'
    cases hc.field_unique hf hg (Prod.mk.inj (Option.some.inj (Except.ok.inj htag'))).1
    exact ⟨_, htakes, hrest⟩
  · obtain ⟨tag, bytes', htag', hnone, -⟩ := hunknown []
    rw [htag] at htag'
    rw [← (Prod.mk.inj (Option.some.inj (Except.ok.inj htag'))).1] at hnone
    exact absurd (List.mem_map_of_mem hf) hnone

/-- Two pieces of different fields can be exchanged. -/
theorem swap (hc : c.Lawful) (hf : f ∈ c.fields) (hg : g ∈ c.fields) (hne : f.tag ≠ g.tag)
    (hp : HasTag f.tag p) (hq : HasTag g.tag q) (h : c.Path acc acc' (p :: q :: pieces)) :
    c.Path acc acc' (q :: p :: pieces) := by
  have hind := hc.independent hf hg hne
  obtain ⟨a, htakes, h⟩ := h.of_hasTag hc hf hp
  obtain ⟨b, htakes', h⟩ := h.of_hasTag hc hg hq
  rw [hind.get_set'] at htakes'
  rw [← hind.set_comm] at h
  refine .field hg htakes' (.field hf ?_ h)
  rwa [hind.get_set]

/-- **The order of different fields does not matter, nor do fields that the messages do not
have.** -/
theorem reordered (hc : c.Lawful) (hre : c.Reordered pieces pieces')
    (h : c.Path acc acc' pieces) : c.Path acc acc' pieces' := by
  induction hre with
  | refl => exact h
  | swap hf hg hne hp hq =>
    obtain ⟨acc₁, hl, hr⟩ := append_iff.1 h
    exact append_iff.2 ⟨acc₁, hl, hr.swap hc hf hg hne hp hq⟩
  | insert hp =>
    obtain ⟨acc₁, hl, hr⟩ := append_iff.1 h
    exact append_iff.2 ⟨acc₁, hl, .unknown hp hr⟩
  | trans _ _ ih ih' => exact ih' (ih h)

end Path

/-- **A message is read from its fields in any order.** -/
theorem Lawful.parse_reordered [Runtime.Lawful ε] (hc : c.Lawful)
    (hsize : c.computeSize m ≤ maxLen) (hinitialized : c.initialized m)
    (hre : c.Reordered (c.pieces m) pieces) : c.parseFromBytes pieces.flatten = .ok m := by
  rw [parseFromBytes, ((hc.path_pieces hsize).reordered hc hre).mergeFrom_eq hc]
  exact if_pos hinitialized

end Codec

/-! ### Shapes with messages -/

namespace Shape

variable {ε N : Type} [Runtime ε] [Runtime.Lawful ε] {c : Codec ε N} {tag : UInt32} {number : ℕ}

theorem length_writeMessage (hc : c.Lawful) (htag : IsTag tag number 2) {v : N}
    (hv : 1 + Runtime.varintSize (c.computeSize v) + c.computeSize v ≤ maxLen) :
    (Runtime.writeMessage number (.ofNat (c.computeSize v)) (c.writeTo v)).length =
      1 + Runtime.varintSize (c.computeSize v) + c.computeSize v := by
  have hlen : c.computeSize v < 0x100000000 :=
    Nat.lt_of_le_of_lt ((Nat.le_add_left _ _).trans hv) (by decide)
  rw [Runtime.Lawful.length_writeMessage number _ _ htag.pos htag.le,
    UInt32.toNat_ofNat_of_lt' hlen, hc.length_writeTo ((Nat.le_add_left _ _).trans hv)]

theorem readMessage_write (hc : c.Lawful) (htag : IsTag tag number 2) {v : N}
    (hv : 1 + Runtime.varintSize (c.computeSize v) + c.computeSize v ≤ maxLen)
    (rest : List UInt8) :
    ∃ bytes, Runtime.readTag (Runtime.writeMessage number (.ofNat (c.computeSize v))
        (c.writeTo v) ++ rest) = .ok (some (tag, bytes)) ∧
      Runtime.readMessage c.new c.mergeFrom bytes = .ok (v, rest) := by
  have hsize : c.computeSize v ≤ maxLen := (Nat.le_add_left _ _).trans hv
  have hlen := hc.length_writeTo hsize
  obtain ⟨bytes, hread, hmessage⟩ := Runtime.Lawful.readMessage_write number (c.writeTo v) rest
    htag.pos htag.le (hlen.trans_le hsize)
  rw [hlen, ← htag.tag_eq] at hread
  refine ⟨bytes, hread, ?_⟩
  rw [hmessage, hc.mergeFrom_writeTo hsize]
  rfl

theorem message_lawful (hc : c.Lawful) (htag : IsTag tag number 2) :
    (message c number).Lawful tag where
  read_le h := Runtime.Lawful.readMessageInto_le h
  write_eq a := by
    rcases a with _ | v
    · rfl
    · exact List.flatten_singleton.symm
  steps {a} hsize := by
    rcases a with _ | v
    · exact .nil
    · refine .cons (fun rest => ?_) .nil
      obtain ⟨bytes, hread, hmessage⟩ := readMessage_write hc htag hsize rest
      refine ⟨bytes, hread, ?_⟩
      show Runtime.readMessageInto c.new c.mergeFrom none bytes = _
      rw [Runtime.Lawful.readMessageInto_none, hmessage]
      rfl
  length_write {a} hsize := by
    rcases a with _ | v
    · rfl
    · exact length_writeMessage hc htag hsize

theorem messages_lawful (hc : c.Lawful) (htag : IsTag tag number 2) :
    (messages c number).Lawful tag where
  read_le h := by
    obtain ⟨⟨v, is⟩, hread, hpure⟩ := bind_eq_ok.1 h
    cases hpure
    exact Runtime.Lawful.readMessage_le hread
  write_eq _ := List.flatMap_def
  steps {vs} hsize := by
    refine steps_append _ (fun v hv us rest => ?_) []
    obtain ⟨bytes, hread, hmessage⟩ := readMessage_write hc htag
      (size_le_of_mem (fun v => 1 + Runtime.varintSize (c.computeSize v) + c.computeSize v) hsize
        hv) rest
    refine ⟨bytes, hread, ?_⟩
    show (Runtime.readMessage c.new c.mergeFrom bytes >>= _) = _
    rw [hmessage]
    rfl
  length_write {vs} hsize := length_flatMap_eq fun v hv => length_writeMessage hc htag
    (size_le_of_mem (fun v => 1 + Runtime.varintSize (c.computeSize v) + c.computeSize v) hsize hv)

end Shape

namespace Field

variable {ε M N : Type} [Runtime ε] [Runtime.Lawful ε] {k : Kind} {c : Codec ε N} {tag : UInt32}
  {number : ℕ}

theorem optional_lawful (lens : Lens M (Option k.Val))
    (htag : IsTag tag number k.wireType := by decide) : (optional k tag number lens).Lawful :=
  Shape.optional_lawful htag

theorem implicit_lawful (lens : Lens M k.Val)
    (htag : IsTag tag number k.wireType := by decide) : (implicit k tag number lens).Lawful :=
  Shape.implicit_lawful htag

theorem repeated_lawful (lens : Lens M (List k.Val))
    (htag : IsTag tag number k.wireType := by decide) : (repeated k tag number lens).Lawful :=
  Shape.repeated_lawful htag

theorem message_lawful (hc : c.Lawful) (lens : Lens M (Option N))
    (htag : IsTag tag number 2 := by decide) : (message c tag number lens).Lawful :=
  Shape.message_lawful hc htag

theorem messages_lawful (hc : c.Lawful) (lens : Lens M (List N))
    (htag : IsTag tag number 2 := by decide) : (messages c tag number lens).Lawful :=
  Shape.messages_lawful hc htag

end Field

end Protobuf

end XStack
