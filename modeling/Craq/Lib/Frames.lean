import Craq.Lib.Bytes

/-! # Streams of frames

A log is a stream of bytes in which every value is written as a frame.  The front of the stream tells
how long the first frame is, so that a stream which was cut off can be read up to its last whole
frame.
-/

namespace Craq.Lib

/-! ## Numbers and slices -/

def littleEndian : Nat → Nat → Bytes
  | 0, _ => []
  | width + 1, value => UInt8.ofNat value :: littleEndian width (value / 256)

def readLittleEndian : Bytes → Nat
  | [] => 0
  | byte :: bytes => byte.toNat + 256 * readLittleEndian bytes

@[simp]
theorem length_littleEndian (width value : Nat) : (littleEndian width value).length = width := by
  induction width generalizing value with
  | zero => rfl
  | succ width ih => rw [littleEndian, List.length_cons, ih]

theorem readLittleEndian_littleEndian (width value : Nat) :
    readLittleEndian (littleEndian width value) = value % 256 ^ width := by
  induction width generalizing value with
  | zero => rw [Nat.pow_zero, Nat.mod_one]; rfl
  | succ width ih =>
    have split : 256 ^ (width + 1) = 256 * 256 ^ width := Nat.pow_succ'
    rw [littleEndian, readLittleEndian, ih, UInt8.toNat_ofNat', split, Nat.mod_mul]

def slice (bytes : Bytes) (low high : Nat) : Bytes :=
  (bytes.drop low).take (high - low)

theorem slice_append_left {left right : Bytes} {high : Nat} (h : left.length = high) :
    slice (left ++ right) 0 high = left := by
  rw [slice, List.drop_zero, Nat.sub_zero, ← h, List.take_left]

theorem slice_append_right {left right : Bytes} {low high : Nat} (h : left.length ≤ low) :
    slice (left ++ right) low high = slice right (low - left.length) (high - left.length) := by
  rw [slice, slice, List.drop_append, List.drop_of_length_le h, List.nil_append]
  congr 1
  omega

/-- A cut falls into the left part, or it leaves the left part whole. -/
theorem cut_append {left right cut : Bytes} (h : cut <+: left ++ right) :
    cut <+: left ∧ cut.length < left.length ∨ ∃ rest, cut = left ++ rest ∧ rest <+: right := by
  by_cases hwhole : left <+: cut
  · obtain ⟨rest, rfl⟩ := hwhole
    exact .inr ⟨rest, rfl, (List.prefix_append_right_inj left).mp h⟩
  · have hpart := (List.prefix_or_prefix_of_prefix h (List.prefix_append _ _)).resolve_right hwhole
    refine .inl ⟨hpart, lt_of_le_of_ne hpart.length_le ?_⟩
    intro hlength
    exact hwhole (hpart.eq_of_length hlength ▸ List.prefix_refl _)

/-! ## Reading -/

/-- What is read off the front of a stream: nothing, because no whole frame is left; the first
value and the rest of the stream; or an error. -/
inductive Front (B E : Type) where
  | ended
  | frame (value : B) (rest : Bytes)
  | refused (err : E)
deriving DecidableEq

structure Scanned (B E : Type) where
  values : List B
  rest : Bytes
  err : Option E
deriving DecidableEq

section Scan

variable {B E : Type} (front : Bytes → Front B E)

def scanFrames : Nat → Bytes → Scanned B E
  | 0, bytes => ⟨[], bytes, none⟩
  | bound + 1, bytes =>
    match front bytes with
    | .ended => ⟨[], bytes, none⟩
    | .refused err => ⟨[], bytes, some err⟩
    | .frame value rest =>
      let later := scanFrames bound rest
      { later with values := value :: later.values }

/-- Every frame takes at least one byte, so the length of the stream bounds their number. -/
def scan (bytes : Bytes) : Scanned B E :=
  scanFrames front (bytes.length + 1) bytes

end Scan

/-! ## Writing -/

/-- Whole frames are read back, whatever follows them, and of a frame that was cut off nothing is
read. -/
structure Frames {A B E : Type} (valid : A → Prop) (frame : A → Bytes) (image : A → B)
    (front : Bytes → Front B E) : Prop where
  nil : front [] = .ended
  whole : ∀ value rest, valid value → front (frame value ++ rest) = .frame (image value) rest
  part : ∀ value part, valid value → part <+: frame value → part ≠ frame value →
    front part = .ended

/-- What a cut leaves of a frame. -/
def Remnant {A : Type} (valid : A → Prop) (frame : A → Bytes) (part : Bytes) : Prop :=
  part = [] ∨ ∃ value, valid value ∧ part <+: frame value ∧ part ≠ frame value

/-- A stream of whole frames and what a cut has left of one more. -/
structure FrameStream {A : Type} (valid : A → Prop) (frame : A → Bytes) (bytes : Bytes)
    (values : List A) (part : Bytes) : Prop where
  bytes_eq : bytes = values.flatMap frame ++ part
  all_valid : ∀ value ∈ values, valid value
  remnant : Remnant valid frame part

namespace Frames

variable {A B E : Type} {valid : A → Prop} {frame : A → Bytes} {image : A → B}
  {front : Bytes → Front B E} {bytes part : Bytes} {values : List A}

variable (h : Frames valid frame image front)

include h

theorem frame_ne_nil {value : A} (hvalue : valid value) : frame value ≠ [] := by
  intro hnil
  have read := h.whole value [] hvalue
  rw [hnil, List.append_nil, h.nil] at read
  cases read

theorem ended (remnant : Remnant valid frame part) : front part = .ended := by
  rcases remnant with rfl | ⟨value, hvalue, hpart, hne⟩
  · exact h.nil
  · exact h.part value part hvalue hpart hne

theorem scanFrames_eq (remnant : Remnant valid frame part) {bound : Nat}
    (hvalues : ∀ value ∈ values, valid value) (enough : values.length < bound) :
    scanFrames front bound (values.flatMap frame ++ part) = ⟨values.map image, part, none⟩ := by
  induction values generalizing bound with
  | nil =>
    obtain ⟨bound, rfl⟩ := Nat.exists_eq_add_of_lt enough
    rw [List.flatMap_nil, List.nil_append, scanFrames, h.ended remnant]
    rfl
  | cons value values ih =>
    have ⟨hvalue, hrest⟩ := List.forall_mem_cons.mp hvalues
    cases bound with
    | zero => cases enough
    | succ bound =>
      rw [List.flatMap_cons, List.append_assoc, scanFrames, h.whole value _ hvalue]
      dsimp only
      rw [ih hrest (Nat.lt_of_succ_lt_succ enough)]
      rfl

theorem length_le (hvalues : ∀ value ∈ values, valid value) :
    values.length ≤ (values.flatMap frame).length := by
  induction values with
  | nil => exact Nat.zero_le _
  | cons value values ih =>
    have ⟨hvalue, hrest⟩ := List.forall_mem_cons.mp hvalues
    have hpositive := List.length_pos_of_ne_nil (h.frame_ne_nil hvalue)
    have := ih hrest
    rw [List.flatMap_cons, List.length_append, List.length_cons]
    omega

theorem scan_eq (stream : FrameStream valid frame bytes values part) :
    scan front bytes = ⟨values.map image, part, none⟩ := by
  have hlength := h.length_le stream.all_valid
  rw [stream.bytes_eq, scan]
  apply h.scanFrames_eq stream.remnant stream.all_valid
  rw [List.length_append]
  omega

end Frames

theorem exists_stream_of_cut {A : Type} {valid : A → Prop} {frame : A → Bytes} {values : List A}
    {cut : Bytes} (hvalues : ∀ value ∈ values, valid value) (h : cut <+: values.flatMap frame) :
    ∃ whole part, whole <+: values ∧ FrameStream valid frame cut whole part := by
  induction values generalizing cut with
  | nil =>
    rw [List.flatMap_nil, List.prefix_nil] at h
    exact ⟨[], [], List.nil_prefix, h, List.forall_mem_nil _, .inl rfl⟩
  | cons value values ih =>
    have ⟨hvalue, hrest⟩ := List.forall_mem_cons.mp hvalues
    rw [List.flatMap_cons] at h
    rcases cut_append h with ⟨hpart, hlt⟩ | ⟨rest, rfl, hlater⟩
    · refine ⟨[], cut, List.nil_prefix, rfl, List.forall_mem_nil _, .inr ⟨value, hvalue, hpart, ?_⟩⟩
      rintro rfl
      exact lt_irrefl _ hlt
    · obtain ⟨whole, part, hwhole, stream⟩ := ih hrest hlater
      refine ⟨value :: whole, part, (List.prefix_cons_inj value).mpr hwhole, ?_, ?_, stream.remnant⟩
      · rw [List.flatMap_cons, List.append_assoc, ← stream.bytes_eq]
      · exact List.forall_mem_cons.mpr ⟨hvalue, stream.all_valid⟩

namespace FrameStream

variable {A : Type} {valid : A → Prop} {frame : A → Bytes} {bytes more part : Bytes}
  {values later : List A}

theorem empty : FrameStream valid frame [] [] [] :=
  ⟨rfl, List.forall_mem_nil _, .inl rfl⟩

theorem append (h : FrameStream valid frame bytes values [])
    (added : FrameStream valid frame more later part) :
    FrameStream valid frame (bytes ++ more) (values ++ later) part := by
  refine ⟨?_, ?_, added.remnant⟩
  · rw [h.bytes_eq, added.bytes_eq, List.append_nil, List.flatMap_append, List.append_assoc]
  · intro value hmem
    rcases List.mem_append.mp hmem with hheld | hnew
    · exact h.all_valid value hheld
    · exact added.all_valid value hnew

theorem truncate (h : FrameStream valid frame bytes values part) :
    FrameStream valid frame (bytes.take (bytes.length - part.length)) values [] := by
  refine ⟨?_, h.all_valid, .inl rfl⟩
  rw [h.bytes_eq, List.length_append, Nat.add_sub_cancel, List.take_left, List.append_nil]

end FrameStream

end Craq.Lib
