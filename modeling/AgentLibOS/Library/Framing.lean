import Mathlib.Data.List.Infix
import Mathlib.Tactic.Ring

namespace AgentLibOS.Library.Framing

/-! ## Numbers of a fixed width -/

/-- A number in so many bytes, the most significant first. -/
def bigEndian : Nat → Nat → List UInt8
  | 0, _ => []
  | width + 1, number => bigEndian width (number / 256) ++ [UInt8.ofNat number]

theorem bigEndian_length (width number : Nat) : (bigEndian width number).length = width := by
  induction width generalizing number with
  | zero => rfl
  | succ width ih => rw [bigEndian, List.length_append, ih, List.length_singleton]

theorem bigEndian_injective {width left right : Nat} (small : left < 256 ^ width)
    (small' : right < 256 ^ width) (same : bigEndian width left = bigEndian width right) :
    left = right := by
  induction width generalizing left right with
  | zero => omega
  | succ width ih =>
      rw [bigEndian, bigEndian] at same
      have lengths : (bigEndian width (left / 256)).length =
          (bigEndian width (right / 256)).length := by
        rw [bigEndian_length, bigEndian_length]
      obtain ⟨high, low⟩ := List.append_inj same lengths
      have quotients : left / 256 = right / 256 := by
        apply ih _ _ high
        · rw [pow_succ] at small
          omega
        · rw [pow_succ] at small'
          omega
      have remainders : left % 256 = right % 256 := by
        have bytes := congrArg UInt8.toNat (List.singleton_inj.mp low)
        rwa [UInt8.toNat_ofNat', UInt8.toNat_ofNat'] at bytes
      omega

/-! ## Frames -/

/-- Bytes behind their length, in so many bytes. -/
def sized (width : Nat) (bytes : List UInt8) : List UInt8 := bigEndian width bytes.length ++ bytes

theorem sized_unique {width : Nat} {left right rest rest' : List UInt8}
    (small : left.length < 256 ^ width) (small' : right.length < 256 ^ width)
    (same : sized width left ++ rest = sized width right ++ rest') : left = right ∧ rest = rest' := by
  rw [sized, sized, List.append_assoc, List.append_assoc] at same
  have widths : (bigEndian width left.length).length = (bigEndian width right.length).length := by
    rw [bigEndian_length, bigEndian_length]
  obtain ⟨heads, tails⟩ := List.append_inj same widths
  exact List.append_inj tails (bigEndian_injective small small' heads)

/-- A tag and what it announces. -/
structure Frame where
  tag : List UInt8
  payload : List UInt8

namespace Frame

/-- The tag behind its length in one byte, the payload behind its length in eight. -/
def bytes (frame : Frame) : List UInt8 := sized 1 frame.tag ++ sized 8 frame.payload

/-- The lengths of the frame fit. -/
def Fits (frame : Frame) : Prop := frame.tag.length < 256 ∧ frame.payload.length < 256 ^ 8

theorem bytes_unique {frame frame' : Frame} (fits : frame.Fits) (fits' : frame'.Fits)
    {rest rest' : List UInt8} (same : frame.bytes ++ rest = frame'.bytes ++ rest') :
    frame = frame' ∧ rest = rest' := by
  rw [bytes, bytes, List.append_assoc, List.append_assoc] at same
  obtain ⟨tags, same⟩ := sized_unique fits.1 fits'.1 same
  obtain ⟨payloads, rests⟩ := sized_unique fits.2 fits'.2 same
  cases frame
  cases frame'
  cases tags
  cases payloads
  exact ⟨rfl, rests⟩

theorem bytes_nonempty (frame : Frame) : frame.bytes ≠ [] := by
  intro none
  have length := congrArg List.length none
  rw [bytes, sized, List.length_append, List.length_append, bigEndian_length] at length
  simp at length

end Frame

def framesBytes (frames : List Frame) : List UInt8 := frames.flatMap Frame.bytes

/-- A stream of frames that begins another begins it frame by frame. -/
theorem frames_prefix {frames frames' : List Frame} (fits : ∀ frame ∈ frames, frame.Fits)
    (fits' : ∀ frame ∈ frames', frame.Fits) (le : framesBytes frames <+: framesBytes frames') :
    frames <+: frames' := by
  induction frames generalizing frames' with
  | nil => exact List.nil_prefix
  | cons frame frames ih =>
      rw [List.forall_mem_cons] at fits
      obtain ⟨rest, same⟩ := le
      cases frames' with
      | nil =>
          rw [framesBytes, List.flatMap_cons] at same
          have empty := (List.append_eq_nil_iff.mp (List.append_eq_nil_iff.mp same).1).1
          exact absurd empty frame.bytes_nonempty
      | cons frame' frames' =>
          rw [List.forall_mem_cons] at fits'
          rw [framesBytes, framesBytes, List.flatMap_cons, List.flatMap_cons, List.append_assoc] at same
          obtain ⟨rfl, tails⟩ := Frame.bytes_unique fits.1 fits'.1 same
          have later : framesBytes frames <+: framesBytes frames' := ⟨rest, tails⟩
          exact List.cons_prefix_cons.mpr ⟨rfl, ih fits.2 fits'.2 later⟩

end AgentLibOS.Library.Framing
