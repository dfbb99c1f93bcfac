import RpcGateway.Text.Utf8
/-!
# ASCII text

Bytes below 128 are read as one character each, and written back as they were.
-/
namespace RpcGateway

/-- A property of all bytes, checked value by value. -/
theorem forall_byte {P : UInt8 → Prop} (h : ∀ n < 256, P (UInt8.ofNat n)) (b : UInt8) : P b := by
  have hbyte := h b.toNat b.toNat_lt
  rwa [UInt8.ofNat_toNat] at hbyte

end RpcGateway

namespace RpcGateway.Utf8

theorem tails_ascii {b : UInt8} (h : b < 0x80) : tails b = some [] :=
  if_pos h

theorem scalar_ascii (b : UInt8) : scalar b [] = Char.ofNat b.toNat := rfl

theorem lossy_ascii {bs : Bytes} (h : ∀ b ∈ bs, b < 0x80) :
    lossy bs = bs.map fun b => Char.ofNat b.toNat := by
  induction bs with
  | nil => rw [lossy, List.map_nil]
  | cons b rest ih =>
    have hrest := ih fun c hc => h c (List.mem_cons_of_mem b hc)
    rw [lossy, tails_ascii (h b List.mem_cons_self)]
    simp only [takeTail, List.length_nil, List.drop_zero, if_true, scalar_ascii, hrest,
      List.map_cons]

private theorem encode_char_ascii {b : UInt8} (h : b < 0x80) :
    String.utf8EncodeChar (Char.ofNat b.toNat) = [b] := by
  have hlt : b.toNat < 128 := h
  have checked : ∀ n < 128, String.utf8EncodeChar (Char.ofNat n) = [UInt8.ofNat n] := by decide
  rw [checked b.toNat hlt, UInt8.ofNat_toNat]

theorem encode_lossy_ascii {bs : Bytes} (h : ∀ b ∈ bs, b < 0x80) : encode (lossy bs) = bs := by
  rw [lossy_ascii h]
  induction bs with
  | nil => rfl
  | cons b rest ih =>
    have hrest := ih fun c hc => h c (List.mem_cons_of_mem b hc)
    rw [encode] at hrest ⊢
    rw [List.map_cons, List.flatMap_cons, hrest, encode_char_ascii (h b List.mem_cons_self)]
    rfl

end RpcGateway.Utf8

namespace RpcGateway

theorem bytesOf_lossyText {bs : Bytes} (h : ∀ b ∈ bs, b < 0x80) : bytesOf (lossyText bs) = bs := by
  rw [bytesOf, lossyText, String.toList_ofList, Utf8.encode_lossy_ascii h]

end RpcGateway
