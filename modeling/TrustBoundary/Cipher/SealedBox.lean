import TrustBoundary.Cipher.ChaCha20
import TrustBoundary.Cipher.Poly1305

/-!
# Bytes hidden and vouched for

ChaCha20 hides the bytes and Poly1305 vouches for what is hidden.  A stream has less than 2³²
blocks, so there is a limit to what can be hidden.  `open?` gives bytes back exactly for what
`close?` makes of them with the same key and nonce (`open?_eq_some_iff`).
-/

namespace TrustBoundary.SealedBox

/-- The size of the tag at the end of a box. -/
def tagSize : Nat := 16

/-- The tag of hidden bytes: of them, filled up to a multiple of sixteen, and of their count. -/
def tag (key nonce hidden : List UInt8) : List UInt8 :=
  let fill := List.replicate ((16 - hidden.length % 16) % 16) 0
  Poly1305.tag ((ChaCha20.block key nonce 0).take 32)
    (hidden ++ fill ++ Bytes.ofNat 8 0 ++ Bytes.ofNat 8 hidden.length)

/-- The bytes hidden or shown again. -/
def veil (key nonce bytes : List UInt8) : List UInt8 :=
  ChaCha20.mask (ChaCha20.stream key nonce bytes.length) bytes

/-- Whether so many bytes can be hidden. -/
def fits (size : Nat) : Bool := size / 64 < 0xffffffff

/-- The hidden bytes and their tag. -/
def close? (key nonce bytes : List UInt8) : Option (List UInt8) :=
  if fits bytes.length then
    let hidden := veil key nonce bytes
    some (hidden ++ tag key nonce hidden)
  else none

/-- The bytes in a box, if its tag is right. -/
def open? (key nonce box : List UInt8) : Option (List UInt8) :=
  if box.length < tagSize then none
  else
    let hidden := box.take (box.length - tagSize)
    if fits hidden.length ∧ tag key nonce hidden = box.drop (box.length - tagSize) then
      some (veil key nonce hidden)
    else none

@[simp]
theorem length_tag (key nonce hidden : List UInt8) : (tag key nonce hidden).length = tagSize :=
  Poly1305.length_tag _ _

@[simp]
theorem length_veil (key nonce bytes : List UInt8) : (veil key nonce bytes).length = bytes.length :=
  ChaCha20.length_mask _ _

@[simp]
theorem veil_veil (key nonce bytes : List UInt8) :
    veil key nonce (veil key nonce bytes) = bytes := by
  simp [veil]

theorem length_of_close? {key nonce bytes box : List UInt8}
    (h : close? key nonce bytes = some box) : box.length = bytes.length + tagSize := by
  simp only [close?] at h
  split at h
  · simp [← Option.some.inj h]
  · simp at h

/-- A box opens to some bytes exactly if it is what closing makes of them. -/
theorem open?_eq_some_iff {key nonce box bytes : List UInt8} :
    open? key nonce box = some bytes ↔ close? key nonce bytes = some box := by
  constructor
  · intro h
    simp only [open?] at h
    split at h
    · simp at h
    · split at h
      · rename_i hbox
        rw [← Option.some.inj h]
        simpa [close?, hbox.2] using hbox.1
      · simp at h
  · intro h
    simp only [close?] at h
    split at h
    · rename_i hfits
      simp [← Option.some.inj h, open?, hfits]
    · simp at h

end TrustBoundary.SealedBox
