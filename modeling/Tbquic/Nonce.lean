import Mathlib.Data.List.OfFn
import Tbquic.Lib.Trace
import Tbquic.Ping

/-!
# Nonces over a run of the sender

The nonce of a packet is computed from the truncated packet number and not from
`c->pkt_num`. This file follows every nonce over all runs of the sender and says exactly
which runs use one twice.
-/

namespace Tbquic

open Prog

/-- Numbers of 64 bits are recovered from their nonces. -/
theorem quicNonce_inj {iv : Fin 12 → UInt8} {a b : ℕ} (h : quicNonce iv a = quicNonce iv b) :
    a % 2 ^ 64 = b % 2 ^ 64 := by
  have hpow : (2 : ℕ) ^ 64 = 256 ^ 8 := by norm_num
  rw [hpow]
  apply Bytes.mod_eq_of_bytes_eq
  intro i hi
  have hbyte := congrFun (List.ofFn_injective h) ⟨11 - i, by omega⟩
  have hindex : 8 * (11 - (11 - i)) = 8 * i := by omega
  simp only [show 4 ≤ 11 - i by omega, if_true, hindex] at hbyte
  have hshift := congrArg UInt8.toNat ((UInt8.xor_right_inj _).mp hbyte)
  simpa [Nat.shiftRight_eq_div_pow, Nat.pow_mul] using hshift

section Build

variable {Ctx : Type} {evp : Evp Ctx}

/-- Between the two states the sender keeps its number and its key, and uses at most the
nonce of one entry. -/
def SealedAtMost (entry : Seal) (s t : PktBuild Ctx) : Prop :=
  t.crypto.pktNum = s.crypto.pktNum ∧ t.ppCipher.iv = s.ppCipher.iv ∧
    (t.sealed = s.sealed ∨ t.sealed = s.sealed ++ [entry])

namespace PktBuild

@[simp] theorem setPpCtx_pktNum (ctx : Ctx) (s : PktBuild Ctx) :
    (s.setPpCtx ctx).crypto.pktNum = s.crypto.pktNum := rfl

@[simp] theorem setPpCtx_iv (ctx : Ctx) (s : PktBuild Ctx) :
    (s.setPpCtx ctx).ppCipher.iv = s.ppCipher.iv := rfl

@[simp] theorem setPpCtx_sealed (ctx : Ctx) (s : PktBuild Ctx) :
    (s.setPpCtx ctx).sealed = s.sealed := rfl

@[simp] theorem setHpCtx_pktNum (ctx : Ctx) (s : PktBuild Ctx) :
    (s.setHpCtx ctx).crypto.pktNum = s.crypto.pktNum := rfl

@[simp] theorem setHpCtx_iv (ctx : Ctx) (s : PktBuild Ctx) :
    (s.setHpCtx ctx).ppCipher.iv = s.ppCipher.iv := rfl

@[simp] theorem setHpCtx_sealed (ctx : Ctx) (s : PktBuild Ctx) :
    (s.setHpCtx ctx).sealed = s.sealed := rfl

@[simp] theorem setPkt_pktNum (pkt : WPacket) (s : PktBuild Ctx) :
    (s.setPkt pkt).crypto.pktNum = s.crypto.pktNum := rfl

@[simp] theorem setPkt_iv (pkt : WPacket) (s : PktBuild Ctx) :
    (s.setPkt pkt).ppCipher.iv = s.ppCipher.iv := rfl

@[simp] theorem setPkt_sealed (pkt : WPacket) (s : PktBuild Ctx) :
    (s.setPkt pkt).sealed = s.sealed := rfl

@[simp] theorem record_pktNum (entry : Seal) (s : PktBuild Ctx) :
    (s.record entry).crypto.pktNum = s.crypto.pktNum := rfl

@[simp] theorem record_iv (entry : Seal) (s : PktBuild Ctx) :
    (s.record entry).ppCipher.iv = s.ppCipher.iv := rfl

@[simp] theorem record_sealed (entry : Seal) (s : PktBuild Ctx) :
    (s.record entry).sealed = s.sealed ++ [entry] := rfl

end PktBuild

/-- Encrypting a payload uses the nonce of the number it is given. -/
theorem quicEncryptPayload_sealed (head : List UInt8) (outLen : ℕ) {pktNum pktNumLen : ℕ}
    {entry : Seal} {s : PktBuild Ctx}
    (hentry : entry = ⟨s.crypto.pktNum, pktNumLen, quicNonce s.ppCipher.iv pktNum⟩) :
    Post (quicEncryptPayload evp head outLen pktNum pktNumLen)
      (fun _ t => SealedAtMost entry s t) (fun _ t => SealedAtMost entry s t) s := by
  simp [quicEncryptPayload, quicEncryptMessage, quicCryptoSetIV, ppCtx, post_ite, SealedAtMost,
    hentry]

/-- Masking the header uses no nonce. -/
theorem quicEncryptHeader_sealed (firstByte pktNumStart dataLen bitsMask : ℕ) (entry : Seal)
    {r s : PktBuild Ctx} (h : SealedAtMost entry r s) :
    Post (quicEncryptHeader evp firstByte pktNumStart dataLen bitsMask)
      (fun _ t => SealedAtMost entry r t) (fun _ t => SealedAtMost entry r t) s := by
  simp only [SealedAtMost] at h
  simp [quicEncryptHeader, quicHPMaskGen, SealedAtMost, h]

/-- Storing bytes that do not fit in the field fails. -/
theorem wPacketPutBytes_post (val size : ℕ) (pkt : WPacket) :
    Post (wPacketPutBytes val size) (fun _ _ => val / 256 ^ size = 0) (fun _ _ => True) pkt := by
  rw [wPacketPutBytes, post_bind]
  exact Post.of_forall (fun _ t => by simp) fun _ _ => trivial

/-- The end of a build uses the nonce of the truncated packet number. -/
theorem quicPacketSeal_sealed {firstByte pktNum pktNumLen cipherLen mask full largestAcked : ℕ}
    (hlen : 1 ≤ pktNumLen ∧ pktNumLen ≤ 4)
    (hcode : quicPktNumberEncode full largestAcked (pktNumLen * 8) = .ok pktNum)
    {r s : PktBuild Ctx} (hfull : r.crypto.pktNum = full) (hpkt : ∃ pkt, s = r.setPkt pkt) :
    let P := SealedAtMost (sealOf r.ppCipher.iv full pktNumLen) r
    Post (quicPacketSeal evp firstByte pktNum pktNumLen cipherLen mask) (fun _ t => P t)
      (fun _ t => P t) s := by
  intro P
  obtain ⟨pkt, rfl⟩ := hpkt
  have hkeep : ∀ pkt', P ((r.setPkt pkt).setPkt pkt') := fun pkt' => ⟨rfl, rfl, .inl rfl⟩
  rw [quicPacketSeal, post_bind, post_get, post_bind, PktBuild.onPkt, post_zoom]
  refine (wPacketPutBytes_post pktNum pktNumLen _).mono (fun _ pkt' hfits => ?_)
    fun _ pkt' _ => hkeep pkt'
  have hlow := quicPktNumberEncode_low hlen hcode hfits
  rw [post_bind, PktBuild.onPkt, post_zoom]
  refine Post.of_forall (fun dest pkt'' => ?_) fun _ pkt'' => hkeep pkt''
  rw [post_bind, post_ensure]
  refine ⟨fun _ => ?_, fun _ => hkeep pkt''⟩
  rw [post_bind, post_get, post_bind]
  have hentry : sealOf r.ppCipher.iv full pktNumLen =
      ⟨r.crypto.pktNum, pktNumLen, quicNonce r.ppCipher.iv pktNum⟩ := by
    rw [sealOf, hfull, hlow]
  refine (quicEncryptPayload_sealed (s := ((r.setPkt pkt).setPkt pkt').setPkt pkt'') _ _
    hentry).mono (fun out t ht => ?_) fun _ t ht => ht
  rw [post_bind, post_modify]
  exact quicEncryptHeader_sealed _ _ _ _ _ ht

/-- A build numbers its packet and uses the nonce of the truncated number, unless it stops
before. -/
theorem quicPacketBuild_sealed (evp : Evp Ctx) (firstByte mask : ℕ) {pktNumLen : ℕ}
    (hlen : 1 ≤ pktNumLen ∧ pktNumLen ≤ 4) (s : PktBuild Ctx) :
    let P := fun t => t = s ∨
      SealedAtMost (sealOf s.ppCipher.iv ((s.crypto.pktNum + 1) % 2 ^ 64) pktNumLen) s.number t
    Post (quicPacketBuild evp firstByte pktNumLen mask) (fun _ t => P t) (fun _ t => P t) s := by
  intro P
  have hkeep : ∀ pkt, P (s.number.setPkt pkt) := fun pkt => .inr ⟨rfl, rfl, .inl rfl⟩
  have hnumber : P s.number := hkeep s.pkt
  simp only [quicPacketBuild, post_bind, post_get, post_ensure, post_modify, post_ofExcept]
  refine ⟨fun _ => ⟨fun pktNum hcode => ⟨fun cipherLen _ => ⟨fun _ => ?_, fun _ => hnumber⟩,
    fun _ _ => hnumber⟩, fun _ _ => hnumber⟩, fun _ => .inl rfl⟩
  have hseal : ∀ pkt, Post (quicPacketSeal evp firstByte pktNum pktNumLen cipherLen mask)
      (fun _ t => P t) (fun _ t => P t) (s.number.setPkt pkt) := fun pkt =>
    (quicPacketSeal_sealed hlen hcode rfl ⟨pkt, rfl⟩).mono (fun _ _ h => .inr h)
      fun _ _ h => .inr h
  rw [quicPacketLength]
  split
  · rw [PktBuild.onPkt, post_zoom]
    exact Post.of_forall (fun _ pkt => hseal pkt) fun _ pkt => hkeep pkt
  · exact hseal s.pkt

end Build

/-- The sending side of one packet number space under one installed key. -/
structure Sender (Ctx : Type) where
  /-- The packet number space. -/
  crypto : QuicCrypto Ctx
  /-- The two bits `quic->pkt_num_len`, one less than the length of the field. -/
  pktNumLen : Fin 4
  /-- The nonces used since the key was installed. -/
  sealed : List Seal

/-- What can happen between two packets of a space. -/
inductive SenderEvent
  /-- `QuicCtrl` with `QUIC_CTRL_SET_PKT_NUM_MAX_LEN`. -/
  | setPktNumMaxLen (len : ℕ)
  /-- `QuicFrameAckParser` reads the largest acknowledged number. -/
  | ack (largestAcked : ℕ)
  /-- `QuicPacketBuild` into a datagram, with the offset of the first byte of the packet. -/
  | build (pkt : WPacket) (firstByte : ℕ) (qb : QBuff) (mask : ℕ)

namespace Sender

variable {Ctx : Type} {evp : Evp Ctx}

/-- A space in which no packet was protected yet. -/
def install (crypto : QuicCrypto Ctx) (pktNumLen : Fin 4) : Sender Ctx :=
  { crypto, pktNumLen, sealed := [] }

/-- The objects of the next build. -/
def toBuild (s : Sender Ctx) (pkt : WPacket) (qb : QBuff) : PktBuild Ctx :=
  { crypto := s.crypto, pkt, qb, sealed := s.sealed }

/-- One event. A build that returns `-1` keeps what it wrote; an assertion or an access
outside a buffer ends the process. -/
def step (evp : Evp Ctx) (s : Sender Ctx) : SenderEvent → Option (Sender Ctx)
  | .setPktNumMaxLen len =>
    if len = 0 ∨ quicGt len 4 then some s else some { s with pktNumLen := Fin.ofNat 4 (len - 1) }
  | .ack largestAcked =>
    if quicGe largestAcked s.crypto.largestAcked then
      some { s with crypto.largestAcked := largestAcked }
    else some s
  | .build pkt firstByte qb mask =>
    match quicPacketBuild evp firstByte (s.pktNumLen.val + 1) mask (s.toBuild pkt qb) with
    | (.ok _, t) | (.error .ret, t) => some { s with crypto := t.crypto, sealed := t.sealed }
    | (.error _, _) => none

/-- The static part of the nonces. -/
def iv (s : Sender Ctx) : Fin 12 → UInt8 := s.crypto.encrypt.ppCipher.iv

/-- The number of the next packet. -/
def nextPktNum (s : Sender Ctx) : ℕ := (s.crypto.pktNum + 1) % 2 ^ 64

/-- The entry that the next packet makes. -/
def nextSeal (s : Sender Ctx) : Seal := sealOf s.iv s.nextPktNum (s.pktNumLen.val + 1)

/-- The state after a build, from the state of its objects. -/
theorem build_sealed {s : Sender Ctx} {pkt : WPacket} {qb : QBuff} {t : PktBuild Ctx}
    (h : t = s.toBuild pkt qb ∨ SealedAtMost s.nextSeal (s.toBuild pkt qb).number t) :
    t.ppCipher.iv = s.iv ∧ (t.sealed = s.sealed ∨ t.sealed = s.sealed ++ [s.nextSeal]) := by
  rcases h with rfl | ⟨-, hiv, hsealed⟩
  · exact ⟨rfl, .inl rfl⟩
  · exact ⟨hiv, hsealed⟩

/-- An event keeps the key, and either uses no nonce or that of the next packet. -/
theorem step_sealed {s t : Sender Ctx} {e : SenderEvent} (h : s.step evp e = some t) :
    t.iv = s.iv ∧ (t.sealed = s.sealed ∨
      (∃ pkt firstByte qb mask, e = .build pkt firstByte qb mask) ∧
        t.sealed = s.sealed ++ [s.nextSeal]) := by
  cases e with
  | setPktNumMaxLen len =>
    simp only [step] at h
    split at h <;> cases h <;> exact ⟨rfl, .inl rfl⟩
  | ack largestAcked =>
    simp only [step] at h
    split at h <;> cases h <;> exact ⟨rfl, .inl rfl⟩
  | build pkt firstByte qb mask =>
    have hbuild := build_sealed (quicPacketBuild_sealed evp firstByte mask
      (⟨by omega, by omega⟩ : 1 ≤ s.pktNumLen.val + 1 ∧ s.pktNumLen.val + 1 ≤ 4)
      (s.toBuild pkt qb)).state
    have hresult : t.iv = (quicPacketBuild evp firstByte (s.pktNumLen.val + 1) mask
          (s.toBuild pkt qb)).2.ppCipher.iv ∧
        t.sealed = (quicPacketBuild evp firstByte (s.pktNumLen.val + 1) mask
          (s.toBuild pkt qb)).2.sealed := by
      simp only [step] at h
      split at h
      · rename_i heq
        cases h
        rw [heq]
        exact ⟨rfl, rfl⟩
      · rename_i heq
        cases h
        rw [heq]
        exact ⟨rfl, rfl⟩
      · cases h
    rw [hresult.1, hresult.2]
    exact ⟨hbuild.1, hbuild.2.imp_right fun h => ⟨⟨_, _, _, _, rfl⟩, h⟩⟩

/-- The number of the next packet, cut to its field, differs from those of all packets so
far that have another number. -/
def FreshCode (s : Sender Ctx) : Prop :=
  ∀ a ∈ s.sealed, a.pktNum ≠ s.nextPktNum →
    a.pktNum % 2 ^ (8 * a.pktNumLen) ≠ s.nextPktNum % 2 ^ (8 * (s.pktNumLen.val + 1))

/-- The condition on an event: a build has a fresh truncated number. -/
def StepFresh (s : Sender Ctx) : SenderEvent → Prop
  | .build .. => s.FreshCode
  | _ => True

/-- The nonces used are those of the truncated numbers. -/
def NoncesTruncated (s : Sender Ctx) : Prop :=
  ∀ a ∈ s.sealed, a.pktNumLen ≤ 4 ∧ a = sealOf s.iv a.pktNum a.pktNumLen

/-- An event keeps the nonces those of the truncated numbers. -/
theorem NoncesTruncated.step {s t : Sender Ctx} {e : SenderEvent} (hs : s.NoncesTruncated)
    (h : s.step evp e = some t) : t.NoncesTruncated := by
  obtain ⟨hiv, hsealed⟩ := step_sealed h
  intro a ha
  rw [hiv]
  rcases hsealed with hsealed | ⟨-, hsealed⟩ <;> rw [hsealed] at ha
  · exact hs a ha
  · rcases List.mem_append.mp ha with ha | ha
    · exact hs a ha
    · rw [List.mem_singleton] at ha
      subst ha
      exact ⟨by simp only [nextSeal, sealOf]; omega, rfl⟩

end Sender

/-- Packets with different numbers use different nonces. -/
def NoncesDistinct (log : List Seal) : Prop :=
  ∀ a ∈ log, ∀ b ∈ log, a.pktNum ≠ b.pktNum → a.nonce ≠ b.nonce

/-- Nonces of truncated numbers are equal when these numbers are. -/
theorem sealOf_nonce_eq_iff {iv : Fin 12 → UInt8} {a b la lb : ℕ} (ha : la ≤ 4) (hb : lb ≤ 4) :
    (sealOf iv a la).nonce = (sealOf iv b lb).nonce ↔ a % 2 ^ (8 * la) = b % 2 ^ (8 * lb) := by
  have hbound : ∀ x l, l ≤ 4 → x % 2 ^ (8 * l) < 2 ^ 64 := fun x l hl =>
    (Nat.mod_lt x (Nat.two_pow_pos _)).trans (Nat.pow_lt_pow_right (by decide) (by omega))
  refine ⟨fun h => ?_, fun h => by rw [sealOf, sealOf, h]⟩
  have hmod := quicNonce_inj h
  rwa [Nat.mod_eq_of_lt (hbound a la ha), Nat.mod_eq_of_lt (hbound b lb hb)] at hmod

namespace Sender

variable {Ctx : Type} {evp : Evp Ctx}

/-- A fresh entry keeps the nonces distinct. -/
theorem noncesDistinct_concat {s : Sender Ctx} (hs : s.NoncesTruncated)
    (hdistinct : NoncesDistinct s.sealed) (hfresh : s.FreshCode) :
    NoncesDistinct (s.sealed ++ [s.nextSeal]) := by
  have hnew : ∀ a ∈ s.sealed, a.pktNum ≠ s.nextSeal.pktNum → a.nonce ≠ s.nextSeal.nonce := by
    intro a ha hne
    obtain ⟨hlen, heq⟩ := hs a ha
    rw [heq, nextSeal, Ne, sealOf_nonce_eq_iff hlen (by omega)]
    exact hfresh a ha hne
  intro a ha b hb hne
  rw [List.mem_append, List.mem_singleton] at ha hb
  rcases ha with ha | rfl <;> rcases hb with hb | rfl
  · exact hdistinct a ha b hb hne
  · exact hnew a ha hne
  · exact (hnew b hb hne.symm).symm
  · exact absurd rfl hne

/-- An entry that is not fresh repeats a nonce. -/
theorem not_noncesDistinct_concat {s : Sender Ctx} (hs : s.NoncesTruncated)
    (hfresh : ¬ s.FreshCode) : ¬ NoncesDistinct (s.sealed ++ [s.nextSeal]) := by
  simp only [FreshCode, not_forall, not_not] at hfresh
  obtain ⟨a, ha, hne, hcode⟩ := hfresh
  intro hdistinct
  obtain ⟨hlen, heq⟩ := hs a ha
  refine hdistinct a (List.mem_append_left _ ha) s.nextSeal (by simp) hne ?_
  rw [heq, nextSeal, sealOf_nonce_eq_iff hlen (by omega)]
  exact hcode

/-- The nonces of a run are pairwise distinct for different packet numbers when every packet
has a fresh truncated number, and a packet that does not have one repeats a nonce. -/
theorem noncesDistinct_of_fresh (evp : Evp Ctx) (crypto : QuicCrypto Ctx) (pktNumLen : Fin 4) :
    (∀ es s, Trace.Along (step evp) StepFresh (install crypto pktNumLen) es →
      Trace.run (step evp) (install crypto pktNumLen) es = some s → NoncesDistinct s.sealed) ∧
    (∀ es s e t, Trace.run (step evp) (install crypto pktNumLen) es = some s →
      step evp s e = some t → t.sealed ≠ s.sealed → ¬ StepFresh s e →
        ¬ NoncesDistinct t.sealed) := by
  have hinit : (install crypto pktNumLen).NoncesTruncated := fun a ha => by cases ha
  constructor
  · intro es s halong hrun
    have hinv := Trace.run_invariant_along (fun s => s.NoncesTruncated ∧ NoncesDistinct s.sealed)
      ?_ ⟨hinit, fun a ha => by cases ha⟩ halong hrun
    · exact hinv.2
    · intro s e t ⟨hs, hdistinct⟩ hok hstep
      refine ⟨hs.step hstep, ?_⟩
      rcases (step_sealed hstep).2 with hsealed | ⟨⟨_, _, _, _, rfl⟩, hsealed⟩ <;> rw [hsealed]
      · exact hdistinct
      · exact noncesDistinct_concat hs hdistinct hok
  · intro es s e t hrun hstep hne hfresh
    have hs : s.NoncesTruncated :=
      Trace.run_invariant _ (fun _ _ _ hs hstep => hs.step hstep) hinit hrun
    rcases (step_sealed hstep).2 with hsealed | ⟨⟨_, _, _, _, rfl⟩, hsealed⟩
    · exact absurd hsealed hne
    · rw [hsealed]
      exact not_noncesDistinct_concat hs hfresh

/-- The build of a packet of PING frames in a short header. -/
def pingBuild : SenderEvent := .build (pingPkt 0x40) 0 pingQb shortHeaderMask

/-- With a field of one byte every build of PING frames emits its packet. -/
theorem step_pingBuild {n : ℕ} (hn : n + 1 < 2 ^ 62) (log : List Seal) :
    step plainEvp { crypto := plainCrypto n 0, pktNumLen := 0, sealed := log } pingBuild =
      some { crypto := plainCrypto (n + 1) 0, pktNumLen := 0,
             sealed := log ++ [sealOf (fun _ => 0) (n + 1) 1] } := by
  have hmod : (n + 1) % 2 ^ 64 = n + 1 := Nat.mod_eq_of_lt (by omega)
  have hcode : quicPktNumberEncode ((n + 1) % 2 ^ 64) 0 (1 * 8) = .ok ((n + 1) % 2 ^ 8) := by
    rw [hmod]
    exact quicPktNumberEncode_eq hn (by decide) (Nat.zero_le _) (.inl rfl)
  obtain ⟨u, t, ht, hcrypto, hsealed⟩ :=
    (quicPacketBuild_ping ⟨le_refl 1, by decide⟩ hcode (by omega) log 0x40).exists_ok
  rw [hmod] at hcrypto hsealed
  have hstep : quicPacketBuild plainEvp 0 ((0 : Fin 4).val + 1) shortHeaderMask
      (toBuild { crypto := plainCrypto n 0, pktNumLen := 0, sealed := log } (pingPkt 0x40) pingQb) =
        (.ok u, t) := ht
  simp only [step, pingBuild, hstep, hcrypto, hsealed]

/-- A run of builds of PING frames emits consecutive packets. -/
theorem run_pingBuild {n : ℕ} (hn : n < 2 ^ 62) :
    Trace.run (step plainEvp) (install (plainCrypto 0 0) 0) (List.replicate n pingBuild) =
      some { crypto := plainCrypto n 0, pktNumLen := 0,
             sealed := (List.range n).map fun i => sealOf (fun _ => 0) (i + 1) 1 } := by
  induction n with
  | zero => rfl
  | succ n ih =>
    rw [List.replicate_succ', Trace.run_concat_eq_some]
    refine ⟨_, ih (by omega), ?_⟩
    rw [step_pingBuild hn, List.range_succ, List.map_append, List.map_singleton]

/-- With a field of one byte packets 1 and 257 are encrypted under the same nonce. -/
theorem run_pingBuild_repeats :
    ∃ s, Trace.run (step plainEvp) (install (plainCrypto 0 0) 0) (List.replicate 257 pingBuild) =
        some s ∧ ¬ NoncesDistinct s.sealed := by
  refine ⟨_, run_pingBuild (by decide), fun hdistinct => ?_⟩
  have hmem : ∀ i < 257, sealOf (fun _ => 0) (i + 1) 1 ∈
      (List.range 257).map fun i => sealOf (fun _ => 0) (i + 1) 1 := fun i hi =>
    List.mem_map.mpr ⟨i, List.mem_range.mpr hi, rfl⟩
  exact hdistinct _ (hmem 0 (by decide)) _ (hmem 256 (by decide)) (by decide) (by decide)

/-- A run of two packets with fresh truncated numbers. -/
theorem noncesDistinct_of_fresh_ping :
    NoncesDistinct [sealOf (fun _ => 0) 1 1, sealOf (fun _ => 0) 2 1] := by
  have hrun := run_pingBuild (n := 2) (by decide)
  refine (noncesDistinct_of_fresh plainEvp (plainCrypto 0 0) 0).1 _ _ ?_ hrun
  refine Trace.along_cons.mpr ⟨(fun a ha => by cases ha), fun t ht => ?_⟩
  refine Trace.along_cons.mpr ⟨?_, fun _ _ => trivial⟩
  change step plainEvp { crypto := plainCrypto 0 0, pktNumLen := 0, sealed := [] } pingBuild =
    some t at ht
  rw [step_pingBuild (by decide)] at ht
  cases ht
  intro a ha _
  rw [List.nil_append, List.mem_singleton] at ha
  subst ha
  decide

end Sender

end Tbquic
