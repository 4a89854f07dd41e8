import Tbquic.Keys.Open

/-!
# Using keys

Building and opening packets changes the state of the contexts, but neither their keys nor which
contexts there are.
-/

namespace Tbquic

section Library

variable {Ctx : Type}

/-- Put another state into a context. -/
def KeyCtx.withCtx (c : KeyCtx Ctx) (ctx : Ctx) : KeyCtx Ctx := { c with ctx }

/-- The calls of the sender on contexts that remember their keys. None of them has a key. -/
def Evp.keyed (evp : Evp Ctx) : Evp (KeyCtx Ctx) where
  cipherInit c nonce enc := (evp.cipherInit c.ctx nonce enc).map c.withCtx
  setIvLen c len := (evp.setIvLen c.ctx len).map c.withCtx
  updateAad c aad := (evp.updateAad c.ctx aad).map fun r => (r.1, c.withCtx r.2)
  cipherUpdate c input := (evp.cipherUpdate c.ctx input).map fun r => (r.1, c.withCtx r.2)
  cipherFinal c := (evp.cipherFinal c.ctx).map fun r => (r.1, c.withCtx r.2)
  getTag c len := evp.getTag c.ctx len

/-- The calls of the receiver on contexts that remember their keys. -/
def EvpOpen.keyed (evp : EvpOpen Ctx) : EvpOpen (KeyCtx Ctx) where
  toEvp := evp.toEvp.keyed
  setTag c tag := (evp.setTag c.ctx tag).map c.withCtx

variable {evp : Evp Ctx} {c c' : KeyCtx Ctx}

theorem keyed_cipherInit_key {nonce : List UInt8} {enc : ℕ}
    (h : evp.keyed.cipherInit c nonce enc = some c') : c'.key = c.key := by
  obtain ⟨ctx, -, rfl⟩ := Option.map_eq_some_iff.mp h
  rfl

theorem keyed_setIvLen_key {len : ℕ} (h : evp.keyed.setIvLen c len = some c') :
    c'.key = c.key := by
  obtain ⟨ctx, -, rfl⟩ := Option.map_eq_some_iff.mp h
  rfl

theorem keyed_updateAad_key {aad : List UInt8} {r : ℕ × KeyCtx Ctx}
    (h : evp.keyed.updateAad c aad = some r) : r.2.key = c.key := by
  obtain ⟨ctx, -, rfl⟩ := Option.map_eq_some_iff.mp h
  rfl

theorem keyed_setTag_key {evp : EvpOpen Ctx} {tag : List UInt8}
    (h : evp.keyed.setTag c tag = some c') : c'.key = c.key := by
  obtain ⟨ctx, -, rfl⟩ := Option.map_eq_some_iff.mp h
  rfl

theorem keyed_cipherUpdate_key {input : List UInt8} {r : List UInt8 × KeyCtx Ctx}
    (h : evp.keyed.cipherUpdate c input = some r) : r.2.key = c.key := by
  obtain ⟨ctx, -, rfl⟩ := Option.map_eq_some_iff.mp h
  rfl

theorem keyed_cipherFinal_key {r : List UInt8 × KeyCtx Ctx}
    (h : evp.keyed.cipherFinal c = some r) : r.2.key = c.key := by
  obtain ⟨ctx, -, rfl⟩ := Option.map_eq_some_iff.mp h
  rfl

/-- `QuicDoCipher` keeps the key of its context. -/
theorem keyed_doCipher_key {n : ℕ} {input : List UInt8} {r : List UInt8 × KeyCtx Ctx}
    (h : quicDoCipher evp.keyed c n input = .ok r) : r.2.key = c.key := by
  unfold quicDoCipher at h
  split at h
  · cases h
  · rename_i out ctx hupdate
    split_ifs at h
    split at h
    · cases h
    · rename_i last ctx' hfinal
      split_ifs at h
      obtain rfl := Except.ok.inj h
      exact (keyed_cipherFinal_key hfinal).trans (keyed_cipherUpdate_key hupdate)

end Library

/-- The contexts of two cipher spaces work under the same keys. -/
structure SameKeys {Ctx : Type} (cs ct : QuicCipherSpace (KeyCtx Ctx)) : Prop where
  /-- The flag. -/
  inited : ct.cipherInited = cs.cipherInited
  /-- The context of the header protection. -/
  hp : ct.hpCipher.ctx.map KeyCtx.key = cs.hpCipher.ctx.map KeyCtx.key
  /-- The context of the packet protection. -/
  pp : ct.ppCipher.cipher.ctx.map KeyCtx.key = cs.ppCipher.cipher.ctx.map KeyCtx.key

namespace SameKeys

variable {Ctx : Type} {cs ct cu : QuicCipherSpace (KeyCtx Ctx)}

theorem refl (cs : QuicCipherSpace (KeyCtx Ctx)) : SameKeys cs cs := ⟨rfl, rfl, rfl⟩

/-- The packet protection stores a context with the key of the old one. -/
theorem setPp (h : SameKeys cs ct) {c c' : KeyCtx Ctx} (hc : ct.ppCipher.cipher.ctx = some c)
    (hkey : c'.key = c.key) : SameKeys cs { ct with ppCipher.cipher.ctx := some c' } where
  inited := h.inited
  hp := h.hp
  pp := by
    rw [← h.pp, hc]
    exact congrArg some hkey

/-- The header protection stores a context with the key of the old one. -/
theorem setHp (h : SameKeys cs ct) {c c' : KeyCtx Ctx} (hc : ct.hpCipher.ctx = some c)
    (hkey : c'.key = c.key) : SameKeys cs { ct with hpCipher.ctx := some c' } where
  inited := h.inited
  hp := by
    rw [← h.hp, hc]
    exact congrArg some hkey
  pp := h.pp

end SameKeys

section Build

variable {Ctx : Type} (evp : Evp Ctx)

/-- A build keeps the keys of a packet number space. -/
def PktBuild.KeepsKeys (c : QuicCrypto (KeyCtx Ctx)) (t : PktBuild (KeyCtx Ctx)) : Prop :=
  SameKeys c.encrypt t.crypto.encrypt ∧ t.crypto.decrypt = c.decrypt

variable {c : QuicCrypto (KeyCtx Ctx)} {s : PktBuild (KeyCtx Ctx)}

/-- Storing a context with the key of the old one keeps the keys. -/
theorem PktBuild.KeepsKeys.setPpCtx (hs : s.KeepsKeys c) {ctx ctx' : KeyCtx Ctx}
    (hctx : s.ppCipher.cipher.ctx = some ctx) (hkey : ctx'.key = ctx.key) :
    (s.setPpCtx ctx').KeepsKeys c :=
  ⟨hs.1.setPp hctx hkey, hs.2⟩

/-- `QuicCryptoSetIV` keeps the keys. -/
theorem quicCryptoSetIV_keys (hs : s.KeepsKeys c) (pktNum : ℕ) :
    Prog.Post (quicCryptoSetIV evp.keyed pktNum) (fun _ t => t.KeepsKeys c)
      (fun _ t => t.KeepsKeys c) s := by
  unfold quicCryptoSetIV ppCtx
  simp only [Prog.post_bind, Prog.post_get, Prog.post_ofOption, Prog.post_modify]
  refine ⟨fun ctx hctx => ⟨fun ctx' hctx' => ?_, fun _ => hs⟩, fun _ => hs⟩
  have hset := hs.setPpCtx hctx (keyed_cipherInit_key hctx')
  exact ⟨fun ctx'' hctx'' => hset.setPpCtx rfl (keyed_setIvLen_key hctx''), fun _ => hset⟩

/-- `QuicEncryptMessage` keeps the keys. -/
theorem quicEncryptMessage_keys (hs : s.KeepsKeys c) (head : List UInt8)
    (outBufLen pktNum pktNumLen : ℕ) (input : List UInt8) :
    Prog.Post (quicEncryptMessage evp.keyed head outBufLen pktNum pktNumLen input)
      (fun _ t => t.KeepsKeys c) (fun _ t => t.KeepsKeys c) s := by
  unfold quicEncryptMessage
  rw [Prog.post_bind]
  refine (quicCryptoSetIV_keys evp hs pktNum).mono (fun _ s hs => ?_) fun _ _ h => h
  unfold ppCtx
  simp only [Prog.post_bind, Prog.post_get, Prog.post_ofOption, Prog.post_ofExcept,
    Prog.post_modify, Prog.post_ensure]
  refine ⟨fun ctx hctx => ⟨fun r hr => ?_, fun _ => hs⟩, fun _ => hs⟩
  have haad := hs.setPpCtx hctx (keyed_updateAad_key hr)
  refine ⟨fun _ => ⟨fun out hout => ?_, fun _ _ => haad⟩, fun _ => haad⟩
  have hset := haad.setPpCtx rfl (keyed_doCipher_key hout)
  refine ⟨fun tagLen _ => ?_, fun _ _ => hset⟩
  rw [Prog.post_ite]
  refine ⟨fun _ => ?_, fun _ => hset⟩
  simp only [Prog.post_bind, Prog.post_ensure, Prog.post_pure]
  exact ⟨fun _ => hset, fun _ => hset⟩

/-- `QuicEncryptHeader` keeps the keys. -/
theorem quicEncryptHeader_keys (hs : s.KeepsKeys c) (firstByte pktNumStart dataLen bitsMask : ℕ) :
    Prog.Post (quicEncryptHeader evp.keyed firstByte pktNumStart dataLen bitsMask)
      (fun _ t => t.KeepsKeys c) (fun _ t => t.KeepsKeys c) s := by
  unfold quicEncryptHeader quicHPMaskGen
  simp only [Prog.post_bind, Prog.post_get, Prog.post_ofOption, Prog.post_ofExcept,
    Prog.post_modify, Prog.post_ensure, Prog.post_pure]
  refine ⟨fun ctx hctx => ⟨fun _ => ⟨fun r hr => ?_, fun _ _ => hs⟩, fun _ => hs⟩, fun _ => hs⟩
  have hset : (s.setHpCtx r.2).KeepsKeys c :=
    ⟨hs.1.setHp hctx (keyed_doCipher_key hr), hs.2⟩
  exact ⟨fun _ => hset, fun _ => hset⟩

/-- An operation on the datagram keeps the keys. -/
theorem onPkt_keys (hs : s.KeepsKeys c) {α : Type} (m : Prog Fail WPacket α) :
    Prog.Post (PktBuild.onPkt m) (fun _ t => t.KeepsKeys c) (fun _ t => t.KeepsKeys c) s := by
  rw [PktBuild.onPkt, Prog.post_zoom]
  exact Prog.Post.of_forall (fun _ _ => hs) fun _ _ => hs

/-- The end of a build keeps the keys. -/
theorem quicPacketSeal_keys (hs : s.KeepsKeys c) (firstByte pktNum pktNumLen cipherLen mask : ℕ) :
    Prog.Post (quicPacketSeal evp.keyed firstByte pktNum pktNumLen cipherLen mask)
      (fun _ t => t.KeepsKeys c) (fun _ t => t.KeepsKeys c) s := by
  rw [quicPacketSeal, Prog.post_bind, Prog.post_get, Prog.post_bind]
  refine (onPkt_keys hs _).mono (fun _ s hs => ?_) fun _ _ h => h
  rw [Prog.post_bind]
  refine (onPkt_keys hs _).mono (fun dest s hs => ?_) fun _ _ h => h
  rw [Prog.post_bind, Prog.post_ensure]
  refine ⟨fun _ => ?_, fun _ => hs⟩
  rw [Prog.post_bind, Prog.post_get, Prog.post_bind]
  have hpayload : Prog.Post (quicEncryptPayload evp.keyed ((s.pkt.buf.take dest).drop firstByte)
      cipherLen pktNum pktNumLen) (fun _ t => t.KeepsKeys c) (fun _ t => t.KeepsKeys c) s := by
    rw [quicEncryptPayload, Prog.post_bind, Prog.post_get, Prog.post_bind]
    refine (quicEncryptMessage_keys evp hs _ _ _ _ _).mono (fun out s hs => ?_) fun _ _ h => h
    simp only [Prog.post_bind, Prog.post_ensure, Prog.post_pure]
    exact ⟨fun _ => hs, fun _ => hs⟩
  refine hpayload.mono (fun out s hs => ?_) fun _ _ h => h
  rw [Prog.post_bind, Prog.post_modify]
  have hout : (s.setPkt (s.pkt.overwrite dest out)).KeepsKeys c := hs
  exact quicEncryptHeader_keys evp hout _ _ _ _

/-- `QuicPacketBuild` keeps the keys. -/
theorem quicPacketBuild_keys (firstByte pktNumLen mask : ℕ) (s : PktBuild (KeyCtx Ctx)) :
    (quicPacketBuild evp.keyed firstByte pktNumLen mask s).2.KeepsKeys s.crypto := by
  have hs : s.number.KeepsKeys s.crypto := ⟨SameKeys.refl _, rfl⟩
  apply Prog.Post.state
  unfold quicPacketBuild
  simp only [Prog.post_bind, Prog.post_get, Prog.post_ensure, Prog.post_modify,
    Prog.post_ofExcept]
  refine ⟨fun _ => ⟨fun pktNum _ => ⟨fun cipherLen _ => ⟨fun _ => ?_, fun _ => hs⟩,
    fun _ _ => hs⟩, fun _ _ => hs⟩, fun _ => ⟨SameKeys.refl _, rfl⟩⟩
  have hlength : Prog.Post (quicPacketLength (cipherLen + pktNumLen) mask)
      (fun _ t => t.KeepsKeys s.crypto) (fun _ t => t.KeepsKeys s.crypto) s.number := by
    rw [quicPacketLength, Prog.post_ite]
    exact ⟨fun _ => onPkt_keys hs _, fun _ => hs⟩
  exact hlength.mono (fun _ t ht => quicPacketSeal_keys evp ht _ _ _ _ _) fun _ _ h => h

end Build

namespace PktOpen

variable {Ctx : Type} (evp : EvpOpen Ctx)

/-- Opening a packet keeps the keys of a packet number space. -/
def KeepsKeys (c : QuicCrypto (KeyCtx Ctx)) (t : PktOpen (KeyCtx Ctx)) : Prop :=
  SameKeys c.decrypt t.crypto.decrypt ∧ t.crypto.encrypt = c.encrypt

variable {c : QuicCrypto (KeyCtx Ctx)} {s : PktOpen (KeyCtx Ctx)}

/-- Storing a context with the key of the old one keeps the keys. -/
theorem KeepsKeys.setPpCtx (hs : s.KeepsKeys c) {ctx ctx' : KeyCtx Ctx}
    (hctx : s.ppCipher.cipher.ctx = some ctx) (hkey : ctx'.key = ctx.key) :
    (s.setPpCtx ctx').KeepsKeys c :=
  ⟨hs.1.setPp hctx hkey, hs.2⟩

/-- The part of `QuicDecryptPacket` in front of the payload keeps the keys. -/
theorem quicDecryptPktNum_keys (hs : s.KeepsKeys c) (now bitMask : ℕ) :
    Prog.Post (quicDecryptPktNum evp.keyed now bitMask) (fun _ t => t.KeepsKeys c)
      (fun _ t => t.KeepsKeys c) s := by
  unfold quicDecryptPktNum quicDecryptHeader quicHPMaskGen
  simp only [Prog.post_bind, Prog.post_get, Prog.post_ofOption, Prog.post_ofExcept,
    Prog.post_modify, Prog.post_ensure, Prog.post_pure]
  refine ⟨fun ctx hctx => ⟨fun _ => ⟨fun r hr => ?_, fun _ _ => hs⟩, fun _ => hs⟩, fun _ => hs⟩
  have hset : SameKeys c.decrypt { s.crypto.decrypt with hpCipher.ctx := some r.2 } :=
    hs.1.setHp hctx (keyed_doCipher_key hr)
  refine ⟨fun _ => ⟨fun _ => ⟨fun pktNum _ => ⟨fun _ => ?_, fun _ => ?_⟩, fun _ _ => ?_⟩,
    fun _ => ?_⟩, fun _ => ?_⟩ <;> exact ⟨hset, hs.2⟩

/-- `QuicCryptoSetIV` keeps the keys. -/
theorem quicCryptoSetIV_keys (hs : s.KeepsKeys c) (pktNum : ℕ) :
    Prog.Post (quicCryptoSetIV evp.keyed pktNum) (fun _ t => t.KeepsKeys c)
      (fun _ t => t.KeepsKeys c) s := by
  unfold quicCryptoSetIV ppCtx
  simp only [Prog.post_bind, Prog.post_get, Prog.post_ofOption, Prog.post_modify]
  refine ⟨fun ctx hctx => ⟨fun ctx' hctx' => ?_, fun _ => hs⟩, fun _ => hs⟩
  have hset := hs.setPpCtx hctx (keyed_cipherInit_key hctx')
  exact ⟨fun ctx'' hctx'' => hset.setPpCtx rfl (keyed_setIvLen_key hctx''), fun _ => hset⟩

/-- The authentication tag keeps the keys. -/
theorem setTag_keys (hs : s.KeepsKeys c) (tagLen : ℕ) (data : List UInt8) :
    Prog.Post (setTag evp.keyed tagLen data) (fun _ t => t.KeepsKeys c)
      (fun _ t => t.KeepsKeys c) s := by
  unfold setTag ppCtx
  rw [Prog.post_ite]
  simp only [Prog.post_bind, Prog.post_get, Prog.post_ofOption, Prog.post_modify, Prog.post_pure]
  refine ⟨fun _ => ⟨fun ctx hctx => ⟨fun ctx' hctx' => ?_, fun _ => hs⟩, fun _ => hs⟩, fun _ => hs⟩
  exact hs.setPpCtx hctx (keyed_setTag_key hctx')

/-- `QuicDecryptMessage` keeps the keys. -/
theorem quicDecryptMessage_keys (hs : s.KeepsKeys c) (outBufLen pktNum : ℕ) :
    Prog.Post (quicDecryptMessage evp.keyed outBufLen pktNum) (fun _ t => t.KeepsKeys c)
      (fun _ t => t.KeepsKeys c) s := by
  rw [quicDecryptMessage, Prog.post_bind, Prog.post_get, Prog.post_bind, Prog.post_ensure]
  refine ⟨fun _ => ?_, fun _ => hs⟩
  rw [Prog.post_bind]
  refine (quicCryptoSetIV_keys evp hs pktNum).mono (fun _ s hs => ?_) fun _ _ h => h
  rw [Prog.post_bind, Prog.post_ofExcept]
  refine ⟨fun tagLen _ => ?_, fun _ _ => hs⟩
  rw [Prog.post_bind, Prog.post_ensure]
  refine ⟨fun _ => ?_, fun _ => hs⟩
  rw [Prog.post_bind]
  refine (setTag_keys evp hs tagLen _).mono (fun _ s hs => ?_) fun _ _ h => h
  unfold ppCtx
  simp only [Prog.post_bind, Prog.post_get, Prog.post_ofOption, Prog.post_ofExcept,
    Prog.post_modify, Prog.post_ensure, Prog.post_pure]
  refine ⟨fun ctx hctx => ⟨fun r hr => ?_, fun _ => hs⟩, fun _ => hs⟩
  have haad := hs.setPpCtx hctx (keyed_updateAad_key hr)
  exact ⟨fun _ => ⟨fun out hout => haad.setPpCtx rfl (keyed_doCipher_key hout), fun _ _ => haad⟩,
    fun _ => haad⟩

/-- `QuicDecryptPacket` keeps the keys. -/
theorem quicDecryptPacket_keys (now outBufLen bitMask : ℕ) (s : PktOpen (KeyCtx Ctx)) :
    (quicDecryptPacket evp.keyed now outBufLen bitMask s).2.KeepsKeys s.crypto := by
  have hs : s.KeepsKeys s.crypto := ⟨SameKeys.refl _, rfl⟩
  apply Prog.Post.state
  rw [quicDecryptPacket, Prog.post_bind]
  refine (quicDecryptPktNum_keys evp hs now bitMask).mono (fun number s hs => ?_) fun _ _ h => h
  rw [Prog.post_bind]
  refine (quicDecryptMessage_keys evp hs outBufLen number.1).mono (fun out t ht => ?_)
    fun _ _ h => h
  rw [Prog.post_bind, Prog.post_modify]
  exact ht

end PktOpen

end Tbquic
