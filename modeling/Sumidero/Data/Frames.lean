import Mathlib.Data.List.Infix

namespace Sumidero.Data

/-! Messages in a stream of bytes, each behind its length in two bytes, the high one first. -/

def lengthBytes (length : Nat) : List UInt8 := [UInt8.ofNat (length / 256), UInt8.ofNat length]

def lengthOf (high low : UInt8) : Nat := high.toNat * 256 + low.toNat

def frame (message : List UInt8) : List UInt8 := lengthBytes message.length ++ message

def frames (messages : List (List UInt8)) : List UInt8 := messages.flatMap frame

/-- The messages that arrived whole, and the bytes after them. -/
def unframe : List UInt8 → List (List UInt8) × List UInt8
  | high :: low :: rest =>
      if lengthOf high low ≤ rest.length then
        let (messages, tail) := unframe (rest.drop (lengthOf high low))
        (rest.take (lengthOf high low) :: messages, tail)
      else ([], high :: low :: rest)
  | short => ([], short)
termination_by bytes => bytes.length
decreasing_by
  simp only [List.length_drop, List.length_cons]
  omega

@[simp] theorem frames_nil : frames [] = [] := rfl

theorem frames_cons (message : List UInt8) (rest : List (List UInt8)) :
    frames (message :: rest) = frame message ++ frames rest := rfl

theorem frames_snoc (front : List (List UInt8)) (message : List UInt8) :
    frames (front ++ [message]) = frames front ++ frame message := by
  rw [frames, List.flatMap_append]
  exact congrArg _ (List.append_nil _)

theorem lengthOf_bytes {length : Nat} (fits : length < 65536) :
    lengthOf (UInt8.ofNat (length / 256)) (UInt8.ofNat length) = length := by
  simp only [lengthOf, UInt8.toNat_ofNat']
  omega

/-- Two bytes are the length bytes of what they say. -/
theorem lengthBytes_lengthOf (high low : UInt8) :
    lengthBytes (lengthOf high low) = [high, low] := by
  have below := high.toNat_lt
  have belowToo := low.toNat_lt
  have first : UInt8.ofNat (lengthOf high low / 256) = high := by
    apply UInt8.toNat_inj.mp
    simp only [lengthOf, UInt8.toNat_ofNat']
    omega
  have second : UInt8.ofNat (lengthOf high low) = low := by
    apply UInt8.toNat_inj.mp
    simp only [lengthOf, UInt8.toNat_ofNat']
    omega
  rw [lengthBytes, first, second]

theorem lengthOf_lt (high low : UInt8) : lengthOf high low < 65536 := by
  have below := high.toNat_lt
  have belowToo := low.toNat_lt
  simp only [lengthOf]
  omega

theorem unframe_frame {message : List UInt8} (fits : message.length < 65536) (rest : List UInt8) :
    unframe (frame message ++ rest) = (message :: (unframe rest).1, (unframe rest).2) := by
  have whole : lengthOf (UInt8.ofNat (message.length / 256)) (UInt8.ofNat message.length) =
      message.length := lengthOf_bytes fits
  simp only [frame, lengthBytes, List.cons_append, List.nil_append]
  rw [unframe, whole, if_pos (by rw [List.length_append]; omega), List.drop_left, List.take_left]

@[simp] theorem unframe_nil : unframe [] = ([], []) := by
  rw [unframe]
  exact nofun

/-- Every message is read back, and what follows the last is read as it would be alone. -/
theorem unframe_frames {messages : List (List UInt8)}
    (fit : ∀ message ∈ messages, message.length < 65536) (rest : List UInt8) :
    unframe (frames messages ++ rest) = (messages ++ (unframe rest).1, (unframe rest).2) := by
  induction messages with
  | nil => rfl
  | cons message others ih =>
      have later := ih fun other member => fit other (List.mem_cons_of_mem _ member)
      rw [frames_cons, List.append_assoc, unframe_frame (fit message List.mem_cons_self), later]
      rfl

/-- Bytes that arrive later complete messages, and change none. -/
theorem unframe_prefix {bytes more : List UInt8} (before : bytes <+: more) :
    (unframe bytes).1 <+: (unframe more).1 := by
  induction bytes using unframe.induct generalizing more with
  | case1 high low rest complete _ _ _ ih =>
      obtain ⟨extra, rfl⟩ := before
      have longer : lengthOf high low ≤ (rest ++ extra).length := by
        rw [List.length_append]
        omega
      simp only [List.cons_append]
      rw [unframe, unframe, if_pos complete, if_pos longer, List.take_append_of_le_length complete,
        List.drop_append_of_le_length complete]
      exact List.cons_prefix_cons.mpr ⟨rfl, ih (List.prefix_append _ _)⟩
  | case2 high low rest incomplete =>
      rw [unframe, if_neg incomplete]
      exact List.nil_prefix
  | case3 short few =>
      have nothing : (unframe short).1 = [] := by
        rcases short with _ | ⟨high, _ | ⟨low, rest⟩⟩
        · rw [unframe]
          exact nofun
        · rw [unframe]
          exact nofun
        · exact absurd rfl (few high low rest)
      rw [nothing]
      exact List.nil_prefix

/-- However much of a stream of messages was written, what can be read are its first messages. -/
theorem unframe_written {messages : List (List UInt8)} {written : List UInt8}
    (fit : ∀ message ∈ messages, message.length < 65536) (front : written <+: frames messages) :
    (unframe written).1 <+: messages := by
  have read := unframe_prefix front
  have whole := unframe_frames fit []
  rw [List.append_nil, unframe_nil, List.append_nil] at whole
  rwa [whole] at read

end Sumidero.Data
