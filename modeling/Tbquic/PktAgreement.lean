import Tbquic.Ping

/-!
# Agreement on packet numbers

RFC 9000 A.2 asks for a field wide enough for the packets that are not acknowledged yet. Then
every receiver that has seen the acknowledged packets decodes the number sent. The encoder
means to refuse narrower fields, but compares bytes with bits and accepts them all.
-/

namespace Tbquic

open Prog

/-- The encoder returns, and unless it returns its error value every receiver between the
acknowledged number and the number sent decodes the number sent. -/
def DecodesAsSent (fullPn largestAcked pnNbits : ℕ) : Prop :=
  ∃ code, quicPktNumberEncode fullPn largestAcked pnNbits = .ok code ∧
    (code ≠ pktNumberError → ∀ largestPn, largestAcked ≤ largestPn → largestPn < fullPn →
      rfcPktNumberDecode largestPn code pnNbits = fullPn)

/-- The width is too small for the packets that are not acknowledged, the new one included. -/
def WidthTooSmall (fullPn largestAcked pnNbits : ℕ) : Prop :=
  2 ^ (pnNbits - 1) < numUnacked fullPn largestAcked

/-- Every build of a packet whose width is too small returns `-1`. -/
def RefusesTooSmall (fullPn largestAcked pnNbits : ℕ) : Prop :=
  WidthTooSmall fullPn largestAcked pnNbits →
    ∀ (Ctx : Type) (evp : Evp Ctx) (s : PktBuild Ctx) (firstByte mask : ℕ),
      (s.crypto.pktNum + 1) % 2 ^ 64 = fullPn → s.crypto.largestAcked = largestAcked →
        (quicPacketBuild evp firstByte (pnNbits / 8) mask s).1 = .error .ret

/-- A returning encoder passed its assertion. -/
theorem quicPktNumberEncode_assert {fullPn largestAcked pnNbits code : ℕ}
    (h : quicPktNumberEncode fullPn largestAcked pnNbits = .ok code) :
    largestAcked = 0 ∨ quicGe fullPn largestAcked := by
  by_contra hassert
  simp only [not_or] at hassert
  unfold quicPktNumberEncode at h
  cases hparam : quicPktNumberGetParam pnNbits with
  | error e => simp [hparam, bind, Except.bind] at h
  | ok param => simp [hparam, bind, Except.bind, hassert] at h

/-- A field that is wide enough is decoded by every receiver. -/
theorem rfcPktNumberDecode_of_wide {fullPn largestAcked largestPn pnNbits : ℕ}
    (hfull : fullPn < 2 ^ 62) (hacked : largestAcked ≤ fullPn) (hbits : pnNbits ∈ pktNumberWidths)
    (hwide : ¬ WidthTooSmall fullPn largestAcked pnNbits) (hlow : largestAcked ≤ largestPn)
    (hhigh : largestPn < fullPn) :
    rfcPktNumberDecode largestPn (fullPn % 2 ^ pnNbits) pnNbits = fullPn := by
  obtain ⟨hwidth, -⟩ := two_pow_width hbits
  rw [WidthTooSmall, numUnacked_eq hfull hacked] at hwide
  have hpos : 0 < 2 ^ (pnNbits - 1) := Nat.two_pow_pos _
  rw [rfcPktNumberDecode, hwidth]
  refine Window.decode_mod hpos (by omega) ?_ hfull
  split at hwide <;> omega

/-- A sender with a field that is too small emits its packet. -/
theorem quicPacketBuild_tooSmall {fullPn largestAcked pnNbits : ℕ} (hfull : fullPn < 2 ^ 62)
    (hbits : pnNbits ∈ pktNumberWidths) (hacked : largestAcked ≤ fullPn)
    (hassert : largestAcked = 0 ∨ quicGe fullPn largestAcked) (hpos : 0 < fullPn) :
    ∃ s : PktBuild Unit, (s.crypto.pktNum + 1) % 2 ^ 64 = fullPn ∧
      s.crypto.largestAcked = largestAcked ∧
      (quicPacketBuild plainEvp 0 (pnNbits / 8) shortHeaderMask s).1 = .ok () := by
  have hlen : 1 ≤ pnNbits / 8 ∧ pnNbits / 8 ≤ 4 ∧ pnNbits / 8 * 8 = pnNbits := by
    simp only [pktNumberWidths, List.mem_cons, List.not_mem_nil, or_false] at hbits
    omega
  have hmod : (fullPn - 1 + 1) % 2 ^ 64 = fullPn := by omega
  have hcode : quicPktNumberEncode ((fullPn - 1 + 1) % 2 ^ 64) largestAcked (pnNbits / 8 * 8) =
      .ok (fullPn % 2 ^ pnNbits) := by
    rw [hmod, hlen.2.2]
    exact quicPktNumberEncode_eq hfull hbits hacked hassert
  have hfits : fullPn % 2 ^ pnNbits / 256 ^ (pnNbits / 8) = 0 := by
    have hpow : 256 ^ (pnNbits / 8) = 2 ^ pnNbits := by
      rw [show (256 : ℕ) = 2 ^ 8 by rfl, ← Nat.pow_mul, Nat.mul_comm, hlen.2.2]
    rw [hpow]
    exact Nat.div_eq_of_lt (Nat.mod_lt _ (Nat.two_pow_pos _))
  obtain ⟨u, t, ht, -⟩ :=
    (quicPacketBuild_ping ⟨hlen.1, hlen.2.1⟩ hcode hfits [] 0x40).exists_ok
  exact ⟨_, hmod, rfl, by rw [ht]⟩

/-- Sender and receiver agree, and narrow fields are refused, exactly when the width
suffices for the packets that are not acknowledged and the assertion of the encoder can
compare their count. -/
theorem decodesAsSent_and_refuses_iff {fullPn largestAcked pnNbits : ℕ} (hfull : fullPn < 2 ^ 62)
    (hacked : largestAcked ≤ fullPn) (hbits : pnNbits ∈ pktNumberWidths) :
    DecodesAsSent fullPn largestAcked pnNbits ∧ RefusesTooSmall fullPn largestAcked pnNbits ↔
      ¬ WidthTooSmall fullPn largestAcked pnNbits ∧
        (largestAcked = 0 ∨ fullPn - largestAcked < 2 ^ 31) := by
  have hhalf : 2 ^ (pnNbits - 1) ≤ 2 ^ 31 :=
    Nat.pow_le_pow_right (by decide) (by have := pktNumberWidths_bounds hbits; omega)
  constructor
  · rintro ⟨⟨code, hcode, -⟩, hrefuses⟩
    have hassert := quicPktNumberEncode_assert hcode
    have hwide : ¬ WidthTooSmall fullPn largestAcked pnNbits := by
      intro hsmall
      have hpos : 0 < fullPn := by
        by_contra hzero
        have hone : 1 ≤ 2 ^ (pnNbits - 1) := Nat.one_le_two_pow
        rw [WidthTooSmall, numUnacked_eq hfull hacked] at hsmall
        split at hsmall <;> omega
      obtain ⟨s, hnum, hack, hok⟩ := quicPacketBuild_tooSmall hfull hbits hacked hassert hpos
      have herror := hrefuses hsmall Unit plainEvp s 0 shortHeaderMask hnum hack
      rw [hok] at herror
      cases herror
    refine ⟨hwide, hassert.imp_right fun hge => ?_⟩
    rw [WidthTooSmall, numUnacked_eq hfull hacked] at hwide
    rw [quicGe_iff_mod] at hge
    split at hwide <;> omega
  · rintro ⟨hwide, hcount⟩
    have hassert : largestAcked = 0 ∨ quicGe fullPn largestAcked := by
      refine hcount.imp_right fun hlt => ?_
      rw [quicGe_iff] <;> omega
    exact ⟨⟨_, quicPktNumberEncode_eq hfull hbits hacked hassert, fun _ _ hlow hhigh =>
      rfcPktNumberDecode_of_wide hfull hacked hbits hwide hlow hhigh⟩, fun h => absurd h hwide⟩

/-- A packet number and a field that is wide enough for it. -/
theorem decodesAsSent_and_refuses_iff_wide :
    DecodesAsSent 0xa82f9b32 0xa82f30ea 16 ∧ RefusesTooSmall 0xa82f9b32 0xa82f30ea 16 ↔
      ¬ WidthTooSmall 0xa82f9b32 0xa82f30ea 16 ∧
        (0xa82f30ea = 0 ∨ 0xa82f9b32 - 0xa82f30ea < 2 ^ 31) :=
  decodesAsSent_and_refuses_iff (by decide) (by decide) (by decide)

/-- One byte for packet 1000 with nothing acknowledged is not refused: the encoder returns
232, which a receiver that has seen no packet above 0 decodes as 232. -/
theorem decodesAsSent_fails :
    quicPktNumberEncode 1000 0 8 = .ok 232 ∧ rfcPktNumberDecode 0 232 8 = 232 ∧
      ¬ DecodesAsSent 1000 0 8 := by
  refine ⟨by decide, by decide, ?_⟩
  rintro ⟨code, hcode, hdecode⟩
  have heq : code = 232 := Except.ok.inj (hcode.symm.trans (by decide))
  subst heq
  exact absurd (hdecode (by decide) 0 (le_refl 0) (by decide)) (by decide)

end Tbquic
