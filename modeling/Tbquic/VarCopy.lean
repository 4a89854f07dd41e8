import Tbquic.VarCodec

/-!
# Copies behind their number

`QuicWPacketSubMemcpyVar` writes a number and as many bytes as there is room for. The number is
sized for all bytes first, and again for those that are written.
-/

namespace Tbquic

/-- A copy into the space of a packet is what it should be. -/
structure CopiesRight (pkt : WPacket) (src : List UInt8) : Prop where
  /-- Without room for a byte behind the number of all bytes it fails. -/
  fails : pkt.maxsize - pkt.written < src.length + varLengthSize src.length →
    pkt.maxsize - pkt.written ≤ varLengthSize src.length →
    ∃ t, quicWPacketSubMemcpyVar src pkt = (.error .ret, t)
  /-- Otherwise the first bytes are written behind the smallest encoding of their number. -/
  copies : ¬ (pkt.maxsize - pkt.written < src.length + varLengthSize src.length ∧
      pkt.maxsize - pkt.written ≤ varLengthSize src.length) →
    ∃ (m : ℕ) (e : VarLength) (t : WPacket), quicWPacketSubMemcpyVar src pkt = (.ok m, t) ∧
      e.IsMinimal m ∧ m ≤ src.length ∧ e.bytes.length + m ≤ pkt.maxsize - pkt.written ∧
      (src.length + varLengthSize src.length ≤ pkt.maxsize - pkt.written → m = src.length) ∧
      pkt.Appends (e.bytes ++ src.take m) t ∧
      ∀ past, quicVariableLengthDecode { past, rest := e.bytes ++ src.take m } =
        (.ok m, { past := past ++ e.bytes, rest := src.take m })

/-- Every copy of fewer than `2 ^ 31` bytes into a space below `2 ^ 31` is what it should be. -/
theorem copiesRight {pkt : WPacket} {src : List UInt8}
    (hroom : pkt.maxsize - pkt.written < 2 ^ 31) (hlen : src.length < 2 ^ 31) :
    CopiesRight pkt src := by
  have hcopy := quicWPacketSubMemcpyVar_eq hroom hlen.le
  have hbounds := varLengthSize_bounds src.length
  constructor
  · intro hlt hle
    have hnone : subMemcpyLen (pkt.maxsize - pkt.written) src.length = none := by
      rw [subMemcpyLen, if_neg (not_le.mpr hlt), if_pos hle]
    rw [hnone] at hcopy
    exact hcopy
  · intro h
    obtain ⟨m, hm⟩ : ∃ m, subMemcpyLen (pkt.maxsize - pkt.written) src.length = some m := by
      unfold subMemcpyLen
      split_ifs
      · exact ⟨_, rfl⟩
      · omega
      · exact ⟨_, rfl⟩
    rw [hm] at hcopy
    obtain ⟨t, hrun, ht⟩ := hcopy
    obtain ⟨hle, hsum⟩ := subMemcpyLen_bounds hm
    have hsmall : m < 2 ^ 62 := by omega
    have hbytes : (VarLength.ofNat m hsmall).bytes.length = varLengthSize m :=
      varLengthBytes_length m
    refine ⟨m, .ofNat m hsmall, t, hrun, VarLength.ofNat_isMinimal hsmall, hle, by omega,
      fun hfits => ?_, ht, fun past => ?_⟩
    · rw [subMemcpyLen, if_pos hfits] at hm
      exact (Option.some.inj hm).symm
    · have hread := (VarLength.ofNat m hsmall).decode_of_sees past (src.take m)
        (.of_length (by rw [List.length_append, List.length_take]; omega))
      rw [VarLength.ofNat_value] at hread
      exact hread

/-- Of 64 bytes into a space of 65, the first 63 are copied: the number of all would need two
bytes. -/
theorem copiesRight_boundary :
    CopiesRight (wPacketStaticBufInit 65) (List.replicate 64 1) :=
  copiesRight (by decide) (by decide)

end Tbquic
