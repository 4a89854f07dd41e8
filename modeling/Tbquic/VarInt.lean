import Tbquic.Packet

/-!
# Variable-length integers

The two top bits of the first byte give the number of bytes, as in RFC 9000 section 16.
Reading what was written returns the number.
-/

namespace Tbquic

/-- The loop of `QuicVariableLengthEncode` that chooses the prefix, started at 3. -/
def varLengthPrefix (length : ℕ) : ℕ → ℕ
  | 0 => 0
  | p + 1 => if 0 < length >>> ((1 <<< p) * 8 - 2) then p + 1 else varLengthPrefix length p

/-- `QuicVariableLengthValueEncode` into a buffer of `blen` bytes. -/
def quicVariableLengthValueEncode (blen length pre : ℕ) : Except Fail (List UInt8) :=
  if blen < 1 <<< pre then .error .ret
  else .ok (UInt8.ofNat (pre * 64 + (length >>> ((1 <<< pre - 1) * 8)) % 64) ::
    Bytes.ofNat (1 <<< pre - 1) length)

/-- `QuicVariableLengthEncode` into a buffer of `blen` bytes. -/
def quicVariableLengthEncode (blen length : ℕ) : Except Fail (List UInt8) :=
  if 0 < length >>> 62 then .error .ret
  else quicVariableLengthValueEncode blen length (varLengthPrefix length 3)

/-- One step of the accumulation in `QuicVariableLengthDecode`, in 64 bits. -/
def varLengthShift (length v : ℕ) : ℕ := (length <<< 8 + v) % 2 ^ 64

/-- The loop of `QuicVariableLengthDecode` over the bytes after the first. -/
def varLengthTail : ℕ → ℕ → Prog Fail RPacket ℕ
  | 0, length => pure length
  | i + 1, length => do
    let v ← rPacketGet1
    varLengthTail i (varLengthShift length v)

/-- `QuicVariableLengthDecode`. -/
def quicVariableLengthDecode : Prog Fail RPacket ℕ := do
  let v ← rPacketGet1
  varLengthTail (1 <<< (v / 64) - 1) (v % 64)

/-- `QuicVariableLengthWrite`. -/
def quicVariableLengthWrite (len : ℕ) : Prog Fail WPacket Unit := do
  let var ← Prog.ofExcept (quicVariableLengthEncode 8 len)
  wPacketMemcpy var

/-- `QuicVariableLenWPacketClose` with the encoded length in place of `v`. -/
def quicVariableLenWPacketClose (v : List UInt8) : Prog Fail WPacket Unit := do
  let pkt ← Prog.get
  match pkt.subs with
  | [] => Prog.fail .ret
  | sub :: parent =>
    Prog.modify fun pkt => { pkt.overwrite sub.value (v.take sub.valLen) with subs := parent }

/-- The number of bytes that `QuicWPacketSubMemcpyVar` writes, and its encoding, when `v` is
the encoding of the number of bytes to write. -/
def quicSubMemcpyClip (space : ℤ) (len : ℕ) (v : List UInt8) : Except Fail (ℕ × List UInt8) :=
  if quicLt space ((len : ℤ) + v.length) then
    if quicLe space v.length then .error .ret
    else do
      let dataLen : ℕ := ((space - v.length) % 2 ^ 64).toNat
      let v ← quicVariableLengthEncode 8 dataLen
      .ok (dataLen, v)
  else .ok (len, v)

/-- The part of `QuicWPacketSubMemcpyVar` that writes. -/
def quicSubMemcpyPut (dataLen : ℕ) (v src : List UInt8) : Prog Fail WPacket ℕ := do
  wPacketStartSubBytes v.length
  wPacketMemcpy (src.take dataLen)
  quicVariableLenWPacketClose v
  pure dataLen

/-- `QuicWPacketSubMemcpyVar`: write a length and as many bytes as fit. The result is the
number of bytes written. -/
def quicWPacketSubMemcpyVar (src : List UInt8) : Prog Fail WPacket ℕ := do
  let pkt ← Prog.get
  let v ← Prog.ofExcept (quicVariableLengthEncode 8 src.length)
  let clip ← Prog.ofExcept (quicSubMemcpyClip pkt.space src.length v)
  quicSubMemcpyPut clip.1 clip.2 src

/-- The number of bytes of the encoding of a number. -/
def varLengthSize (length : ℕ) : ℕ :=
  if length < 2 ^ 6 then 1 else if length < 2 ^ 14 then 2 else if length < 2 ^ 30 then 4 else 8

/-- The bits of a number that share the first byte with the prefix. -/
def varLengthHead (length : ℕ) : ℕ := length / 256 ^ (varLengthSize length - 1)

/-- The encoding of a number. -/
def varLengthBytes (length : ℕ) : List UInt8 :=
  UInt8.ofNat (varLengthPrefix length 3 * 64 + varLengthHead length) ::
    Bytes.ofNat (varLengthSize length - 1) length

/-- The prefix is that of the smallest encoding. -/
theorem varLengthPrefix_eq (length : ℕ) :
    varLengthPrefix length 3 =
      if length < 2 ^ 6 then 0 else if length < 2 ^ 14 then 1
      else if length < 2 ^ 30 then 2 else 3 := by
  simp only [varLengthPrefix, Nat.shiftRight_eq_div_pow, Nat.shiftLeft_eq]
  split_ifs <;> omega

/-- The prefix is the logarithm of the number of bytes. -/
theorem shiftLeft_varLengthPrefix (length : ℕ) :
    1 <<< varLengthPrefix length 3 = varLengthSize length := by
  rw [varLengthPrefix_eq, varLengthSize]
  split_ifs <;> rfl

/-- An encoding has one, two, four or eight bytes. -/
theorem varLengthSize_bounds (length : ℕ) :
    1 ≤ varLengthSize length ∧ varLengthSize length ≤ 8 := by
  unfold varLengthSize
  split_ifs <;> omega

@[simp] theorem varLengthBytes_length (length : ℕ) :
    (varLengthBytes length).length = varLengthSize length := by
  have := varLengthSize_bounds length
  simp only [varLengthBytes, List.length_cons, Bytes.ofNat_length]
  omega

/-- The high bits of a number fit beside the prefix in the first byte. -/
theorem varLengthHead_lt {length : ℕ} (h : length < 2 ^ 62) : varLengthHead length < 64 := by
  unfold varLengthHead varLengthSize
  split_ifs <;> norm_num <;> omega

/-- There are four prefixes. -/
theorem varLengthPrefix_lt (length : ℕ) : varLengthPrefix length 3 < 4 := by
  rw [varLengthPrefix_eq]
  split_ifs <;> omega

/-- Every number below `2 ^ 62` is written into a buffer that holds its smallest encoding. -/
theorem quicVariableLengthEncode_of_lt {v : ℕ} (h : v < 2 ^ 62) (blen : ℕ) :
    quicVariableLengthEncode blen v =
      if varLengthSize v ≤ blen then .ok (varLengthBytes v) else .error .ret := by
  have hlimit : ¬ 0 < v >>> 62 := by
    rw [Nat.shiftRight_eq_div_pow]
    omega
  have hhead : v >>> ((varLengthSize v - 1) * 8) % 64 = varLengthHead v := by
    rw [Nat.shiftRight_eq_div_pow, Nat.mul_comm, Nat.pow_mul]
    exact Nat.mod_eq_of_lt (varLengthHead_lt h)
  rw [quicVariableLengthEncode, if_neg hlimit, quicVariableLengthValueEncode,
    shiftLeft_varLengthPrefix, hhead]
  by_cases hfits : varLengthSize v ≤ blen
  · rw [if_pos hfits, if_neg (not_lt.mpr hfits), varLengthBytes]
  · rw [if_neg hfits, if_pos (not_le.mp hfits)]

/-- A larger number is written nowhere. -/
theorem quicVariableLengthEncode_of_le {v : ℕ} (h : 2 ^ 62 ≤ v) (blen : ℕ) :
    quicVariableLengthEncode blen v = .error .ret := by
  have hlimit : 0 < v >>> 62 := by
    rw [Nat.shiftRight_eq_div_pow]
    omega
  rw [quicVariableLengthEncode, if_pos hlimit]

/-- Every number below `2 ^ 62` has an encoding. -/
theorem quicVariableLengthEncode_eq {length : ℕ} (h : length < 2 ^ 62) :
    quicVariableLengthEncode 8 length = .ok (varLengthBytes length) := by
  rw [quicVariableLengthEncode_of_lt h, if_pos (varLengthSize_bounds length).2]

/-- A number of 63 bits or more has no encoding. -/
theorem quicVariableLengthEncode_eq_error {length : ℕ} (h : 2 ^ 62 ≤ length) :
    quicVariableLengthEncode 8 length = .error .ret := quicVariableLengthEncode_of_le h 8

/-- The size of an encoding grows with the number. -/
theorem varLengthSize_mono {a b : ℕ} (h : a ≤ b) : varLengthSize a ≤ varLengthSize b := by
  unfold varLengthSize
  split_ifs <;> omega

/-- A number is written to a buffer of ordinary size when it has an encoding that fits. -/
theorem quicVariableLengthWrite_follows {pkt : WPacket} (hmax : pkt.maxsize < 2 ^ 31) (n : ℕ) :
    Prog.Follows (quicVariableLengthWrite n)
      (guard (n < 2 ^ 62 ∧ pkt.written + varLengthSize n ≤ pkt.maxsize))
      (fun _ _ t => pkt.Extends (varLengthBytes n) t) pkt := by
  have hsize := varLengthSize_bounds n
  rw [quicVariableLengthWrite]
  by_cases hn : n < 2 ^ 62
  · have happend := wPacketAppend_follows (varLengthBytes n) hmax (by simp; omega)
    have hempty : ¬ (varLengthBytes n).length = 0 := by
      rw [varLengthBytes_length]
      omega
    rw [varLengthBytes_length] at happend
    rw [quicVariableLengthEncode_eq hn, Prog.ofExcept_ok, Prog.pure_bind, wPacketMemcpy,
      if_neg hempty]
    simpa only [hn, true_and] using happend
  · rw [quicVariableLengthEncode_eq_error (not_lt.mp hn), Prog.ofExcept_error, Prog.fail_bind,
      guard, if_neg fun h => hn h.1]
    exact .of_error rfl

/-- The number of bytes that `QuicWPacketSubMemcpyVar` writes behind their number when there
is room for `space` bytes. -/
def subMemcpyLen (space len : ℕ) : Option ℕ :=
  if len + varLengthSize len ≤ space then some len
  else if space ≤ varLengthSize len then none
  else some (space - varLengthSize len)

/-- The bytes written are among those to write and fit with their number. -/
theorem subMemcpyLen_bounds {space len n : ℕ} (h : subMemcpyLen space len = some n) :
    n ≤ len ∧ varLengthSize n + n ≤ space := by
  unfold subMemcpyLen at h
  split_ifs at h with hfits hfull
  · rw [Option.some.injEq] at h
    rw [← h]
    omega
  · rw [Option.some.injEq] at h
    have hmono := varLengthSize_mono (show n ≤ len by omega)
    omega

/-- Bytes behind their number are written when they fit. -/
theorem quicSubMemcpyPut_of_fits {pkt : WPacket} {src : List UInt8} {len : ℕ}
    (hroom : pkt.maxsize - pkt.written < 2 ^ 31) (hlen : len ≤ src.length)
    (h : pkt.written + varLengthSize len + len ≤ pkt.maxsize) :
    ∃ t, quicSubMemcpyPut len (varLengthBytes len) src pkt = (.ok len, t) ∧
      pkt.Appends (varLengthBytes len ++ src.take len) t := by
  have hsize := varLengthBytes_length len
  have htake : (src.take len).length = len := List.length_take_of_le hlen
  obtain ⟨t, hstart, ht⟩ := wPacketStartSubBytes_of_room hroom
    (show pkt.written + (varLengthBytes len).length ≤ pkt.maxsize by omega)
  have hwritten : t.written = pkt.written + varLengthSize len := by
    rw [ht.extends.written, List.length_replicate, hsize]
    rfl
  have hmaxsize : t.maxsize = pkt.maxsize := ht.maxsize
  obtain ⟨u, hcopy, hu⟩ := @wPacketMemcpy_of_room t (src.take len) (by omega) (by omega)
  have hbuf : u.buf =
      pkt.buf ++ List.replicate (varLengthBytes len).length 0 ++ src.take len := by
    rw [hu.buf, ht.buf]
  have hover : Bytes.overwrite
      (pkt.buf ++ List.replicate (varLengthBytes len).length 0 ++ src.take len)
      pkt.buf.length (varLengthBytes len) = pkt.buf ++ varLengthBytes len ++ src.take len :=
    Bytes.overwrite_append _ (List.length_replicate).symm
  have hsubs : u.subs = { value := pkt.written, valLen := (varLengthBytes len).length } ::
      pkt.subs := hu.subs.trans ht.subs
  refine ⟨{ u.overwrite pkt.written (varLengthBytes len) with subs := pkt.subs }, ?_, ?_,
    hu.maxsize.trans hmaxsize, rfl, hu.closed.trans ht.closed⟩
  · rw [quicSubMemcpyPut, Prog.bind_of_ok hstart, Prog.bind_of_ok hcopy,
      quicVariableLenWPacketClose, Prog.bind_assoc, Prog.get_bind, hsubs]
    dsimp only
    rw [Prog.modify_bind, List.take_length]
    rfl
  · change Bytes.overwrite u.buf pkt.written (varLengthBytes len) = _
    rw [hbuf, WPacket.written, hover, List.append_assoc]

/-- Nothing is written when there is no room for the number. -/
theorem quicSubMemcpyPut_of_not_fits (pkt : WPacket) (src v : List UInt8) (len : ℕ)
    (hv : v.length < 2 ^ 31) (h : pkt.maxsize < pkt.written + v.length) :
    ∃ t, quicSubMemcpyPut len v src pkt = (.error .ret, t) := by
  have hfits : pkt.written ≤ pkt.maxsize := pkt.fits
  have hcheck : quicLt ((pkt.maxsize : ℤ) - pkt.written)
      (List.replicate v.length (0 : UInt8)).length := by
    rw [List.length_replicate, quicLt_iff] <;> omega
  have hstart : ∃ t, wPacketStartSubBytes v.length pkt = (.error .ret, t) := by
    rw [wPacketStartSubBytes, Prog.modify_bind]
    exact ⟨_, if_pos hcheck⟩
  obtain ⟨t, hstart⟩ := hstart
  exact ⟨t, Prog.bind_of_error hstart⟩

/-- The number of bytes is clipped as the account says when there is room for their number. -/
theorem quicSubMemcpyClip_eq {space len : ℕ} (hspace : space < 2 ^ 31) (hlen : len ≤ 2 ^ 31)
    (hroom : varLengthSize len ≤ space) :
    quicSubMemcpyClip space len (varLengthBytes len) =
      match subMemcpyLen space len with
      | some n => .ok (n, varLengthBytes n)
      | none => .error .ret := by
  have hbounds := varLengthSize_bounds len
  have hlt : quicLt (space : ℤ) ((len : ℤ) + varLengthSize len) ↔
      ¬ len + varLengthSize len ≤ space := by
    rw [quicLt_iff] <;> omega
  have hle : quicLe (space : ℤ) (varLengthSize len) ↔ space ≤ varLengthSize len := by
    rw [quicLe_iff] <;> omega
  have hrest : (((space : ℤ) - varLengthSize len) % 2 ^ 64).toNat = space - varLengthSize len := by
    omega
  rw [quicSubMemcpyClip, varLengthBytes_length, subMemcpyLen]
  by_cases hfits : len + varLengthSize len ≤ space
  · rw [if_neg (by rwa [hlt, not_not]), if_pos hfits]
  · rw [if_pos (hlt.mpr hfits), if_neg hfits]
    by_cases hfull : space ≤ varLengthSize len
    · rw [if_pos (hle.mpr hfull), if_pos hfull]
    · rw [if_neg (hle.not.mpr hfull), if_neg hfull, hrest]
      dsimp only
      rw [quicVariableLengthEncode_eq (show space - varLengthSize len < 2 ^ 62 by omega)]
      rfl

/-- `QuicWPacketSubMemcpyVar` writes as many bytes as there is room for behind their number, and
fails when there is no room for a byte of them. -/
theorem quicWPacketSubMemcpyVar_eq {pkt : WPacket} {src : List UInt8}
    (hroom : pkt.maxsize - pkt.written < 2 ^ 31) (hlen : src.length ≤ 2 ^ 31) :
    match subMemcpyLen (pkt.maxsize - pkt.written) src.length with
    | some n => ∃ t, quicWPacketSubMemcpyVar src pkt = (.ok n, t) ∧
        pkt.Appends (varLengthBytes n ++ src.take n) t
    | none => ∃ t, quicWPacketSubMemcpyVar src pkt = (.error .ret, t) := by
  have hfits : pkt.written ≤ pkt.maxsize := pkt.fits
  have hsize := varLengthBytes_length src.length
  have hbounds := varLengthSize_bounds src.length
  have hrun : quicWPacketSubMemcpyVar src pkt = (do
      let clip ← Prog.ofExcept (quicSubMemcpyClip (pkt.maxsize - pkt.written : ℕ) src.length
        (varLengthBytes src.length))
      quicSubMemcpyPut clip.1 clip.2 src : Prog Fail WPacket ℕ) pkt := by
    rw [quicWPacketSubMemcpyVar, Prog.get_bind, quicVariableLengthEncode_eq (by omega),
      Prog.ofExcept_ok, Prog.pure_bind, pkt.space_of_room hroom]
  rw [hrun]
  by_cases hnumber : varLengthSize src.length ≤ pkt.maxsize - pkt.written
  · rw [quicSubMemcpyClip_eq hroom hlen hnumber]
    cases hn : subMemcpyLen (pkt.maxsize - pkt.written) src.length with
    | none =>
      dsimp only
      rw [Prog.ofExcept_error, Prog.fail_bind]
      exact ⟨_, rfl⟩
    | some n =>
      obtain ⟨hle, hsum⟩ := subMemcpyLen_bounds hn
      dsimp only
      have hput := @quicSubMemcpyPut_of_fits pkt src n hroom hle (by omega)
      rw [Prog.ofExcept_ok, Prog.pure_bind]
      exact hput
  · have hnone : subMemcpyLen (pkt.maxsize - pkt.written) src.length = none := by
      rw [subMemcpyLen, if_neg (by omega), if_pos (by omega)]
    rw [hnone]
    dsimp only
    have hle : quicLe ((pkt.maxsize - pkt.written : ℕ) : ℤ) (varLengthBytes src.length).length := by
      rw [hsize, quicLe_iff] <;> omega
    rw [quicSubMemcpyClip]
    split_ifs
    · rw [Prog.ofExcept_error, Prog.fail_bind]
      exact ⟨_, rfl⟩
    · -- the 32 bit difference wrapped, and the number does not fit
      have hput := quicSubMemcpyPut_of_not_fits pkt src (varLengthBytes src.length) src.length
        (by omega) (by omega)
      rw [Prog.ofExcept_ok, Prog.pure_bind]
      exact hput

/-- `QuicWPacketSubMemcpyVar` writes as many bytes as there is room for behind their number. -/
theorem quicWPacketSubMemcpyVar_follows (pkt : WPacket) (src : List UInt8)
    (hmax : pkt.maxsize < 2 ^ 30) (hlen : src.length ≤ 2 ^ 31) :
    Prog.Follows (quicWPacketSubMemcpyVar src)
      (subMemcpyLen (pkt.maxsize - pkt.written) src.length)
      (fun n a t => a = n ∧ pkt.Extends (varLengthBytes n ++ src.take n) t) pkt := by
  have hcopy := @quicWPacketSubMemcpyVar_eq pkt src (by omega) hlen
  cases hn : subMemcpyLen (pkt.maxsize - pkt.written) src.length with
  | none =>
    rw [hn] at hcopy
    obtain ⟨t, hrun⟩ := hcopy
    exact .of_error hrun
  | some n =>
    rw [hn] at hcopy
    obtain ⟨t, hrun, ht⟩ := hcopy
    exact .of_ok hrun ⟨rfl, ht.extends⟩

/-- The check of `RPacketGet1` sees each of the first `n` bytes that are there. -/
def SeesBytes (n : ℕ) (rest : List UInt8) : Prop :=
  ∀ i < n, i < rest.length → ¬ quicLt ((rest.length - i : ℕ) : ℤ) 1

namespace SeesBytes

variable {n : ℕ} {b : UInt8} {rest : List UInt8}

/-- The first byte is seen, and those behind it. -/
theorem cons : SeesBytes (n + 1) (b :: rest) ↔
    ¬ quicLt ((b :: rest).length : ℕ) 1 ∧ SeesBytes n rest := by
  constructor
  · intro h
    refine ⟨h 0 n.succ_pos (Nat.succ_pos _), fun i hi hlength => ?_⟩
    have hnext := h (i + 1) (by omega) (by rw [List.length_cons]; omega)
    rw [List.length_cons, Nat.add_sub_add_right] at hnext
    exact hnext
  · rintro ⟨hfirst, h⟩ i hi hlength
    cases i with
    | zero => exact hfirst
    | succ i =>
      rw [List.length_cons] at hlength
      rw [List.length_cons, Nat.add_sub_add_right]
      exact h i (by omega) (by omega)

/-- In a packet of ordinary size every byte is seen. -/
theorem of_length (h : rest.length ≤ 2 ^ 31) : SeesBytes n rest := by
  intro i _ hi
  rw [quicLt_iff] <;> omega

end SeesBytes

/-- The decoding loop appends the bytes it reads to its accumulator. -/
theorem varLengthTail_of_sees (past bytes rest : List UInt8) {length : ℕ}
    (hsees : SeesBytes bytes.length (bytes ++ rest))
    (hvalue : length * 256 ^ bytes.length + Bytes.toNat bytes < 2 ^ 64) :
    varLengthTail bytes.length length { past, rest := bytes ++ rest } =
      (.ok (length * 256 ^ bytes.length + Bytes.toNat bytes), { past := past ++ bytes, rest }) := by
  induction bytes generalizing past length with
  | nil =>
    rw [List.length_nil, varLengthTail, Prog.pure_apply, Nat.pow_zero, Nat.mul_one,
      Bytes.toNat_nil, Nat.add_zero, List.append_nil, List.nil_append]
  | cons b bytes ih =>
    rw [List.cons_append, List.length_cons, SeesBytes.cons] at hsees
    rw [Bytes.toNat_cons, List.length_cons, Nat.pow_succ] at hvalue
    have hstep : (length * 256 + b.toNat) * 256 ^ bytes.length + Bytes.toNat bytes =
        length * (256 ^ bytes.length * 256) +
          (b.toNat * 256 ^ bytes.length + Bytes.toNat bytes) := by
      ring
    have hpos : 1 ≤ 256 ^ bytes.length := Nat.one_le_pow _ _ (by decide)
    have hmod : varLengthShift length b.toNat = length * 256 + b.toNat := by
      have := Nat.le_mul_of_pos_right (length * 256 + b.toNat) hpos
      rw [varLengthShift, Nat.shiftLeft_eq]
      exact Nat.mod_eq_of_lt (by omega)
    rw [List.length_cons, varLengthTail, List.cons_append,
      Prog.bind_of_ok (rPacketGet1_cons_eq.trans (if_neg hsees.1)), hmod, ih _ hsees.2 (by omega),
      hstep, Bytes.toNat_cons, Nat.pow_succ, List.append_assoc, List.singleton_append]

/-- The decoding loop fails when a byte is missing or not seen. -/
theorem varLengthTail_of_not_sees {n : ℕ} {rest : List UInt8}
    (h : rest.length < n ∨ ¬ SeesBytes n rest) (past : List UInt8) (length : ℕ) :
    ∃ pkt, varLengthTail n length { past, rest } = (.error .ret, pkt) := by
  induction n generalizing past rest length with
  | zero =>
    rcases h with h | h
    · exact absurd h (Nat.not_lt_zero _)
    · exact absurd (fun i hi => absurd hi (Nat.not_lt_zero _)) h
  | succ n ih =>
    rw [varLengthTail]
    cases rest with
    | nil => exact ⟨_, Prog.bind_of_error rPacketGet1_nil⟩
    | cons b rest =>
      by_cases hcheck : quicLt ((b :: rest).length : ℕ) 1
      · exact ⟨_, Prog.bind_of_error (rPacketGet1_cons_eq.trans (if_pos hcheck))⟩
      · rw [Prog.bind_of_ok (rPacketGet1_cons_eq.trans (if_neg hcheck))]
        refine ih (h.imp (fun h => ?_) fun h hsees => h (SeesBytes.cons.mpr ⟨hcheck, hsees⟩)) _ _
        rw [List.length_cons] at h
        omega

/-- A number as RFC 9000 section 16 writes it: the two top bits of the first byte give the number
of bytes, and the other bits are the value. -/
structure VarLength where
  /-- The first byte. -/
  head : UInt8
  /-- The bytes behind it. -/
  tail : List UInt8
  /-- The first byte counts the bytes behind it. -/
  tail_length : tail.length = 1 <<< (head.toNat / 64) - 1

namespace VarLength

/-- The bytes of a number. -/
def bytes (v : VarLength) : List UInt8 := v.head :: v.tail

/-- The value of a number. -/
def value (v : VarLength) : ℕ := v.head.toNat % 64 * 256 ^ v.tail.length + Bytes.toNat v.tail

/-- At most seven bytes are behind the first. -/
theorem tail_length_le (v : VarLength) : v.tail.length ≤ 7 := by
  have hhead := v.head.toNat_lt
  have hfield : v.head.toNat / 64 = 0 ∨ v.head.toNat / 64 = 1 ∨ v.head.toNat / 64 = 2 ∨
      v.head.toNat / 64 = 3 := by omega
  rw [v.tail_length]
  rcases hfield with h | h | h | h <;> rw [h] <;> decide

/-- A value has 62 bits. -/
theorem value_lt (v : VarLength) : v.value < 2 ^ 62 := by
  have htail := Bytes.toNat_lt v.tail
  have hhead : (v.head.toNat % 64 + 1) * 256 ^ v.tail.length ≤ 64 * 256 ^ 7 :=
    Nat.mul_le_mul (by omega) (Nat.pow_le_pow_right (by decide) v.tail_length_le)
  rw [Nat.add_mul] at hhead
  rw [value]
  omega

/-- The number of bytes, as the first of them gives it. -/
theorem bytes_length (v : VarLength) : v.bytes.length = 1 <<< (v.head.toNat / 64) := by
  have hpos : 0 < 1 <<< (v.head.toNat / 64) := by
    rw [Nat.shiftLeft_eq, Nat.one_mul]
    exact Nat.pow_pos Nat.two_pos
  rw [bytes, List.length_cons, v.tail_length]
  omega

/-- A number is read when its bytes are seen. -/
theorem decode_of_sees (v : VarLength) (past rest : List UInt8)
    (hsees : SeesBytes v.bytes.length (v.bytes ++ rest)) :
    quicVariableLengthDecode { past, rest := v.bytes ++ rest } =
      (.ok v.value, { past := past ++ v.bytes, rest }) := by
  have hvalue := v.value_lt
  rw [value] at hvalue
  rw [bytes, List.cons_append, List.length_cons, SeesBytes.cons] at hsees
  have htail := varLengthTail_of_sees (past ++ [v.head]) v.tail rest hsees.2
    (hvalue.trans (by decide))
  rw [bytes, List.cons_append, quicVariableLengthDecode,
    Prog.bind_of_ok (rPacketGet1_cons_eq.trans (if_neg hsees.1)), ← v.tail_length, htail,
    List.append_assoc, List.singleton_append, value]

/-- The first byte counts too few bytes behind it, or some are not seen: nothing is read. -/
theorem decode_of_not_sees {past : List UInt8} {head : UInt8} {tail : List UInt8}
    (h : (head :: tail).length < 1 <<< (head.toNat / 64) ∨
      ¬ SeesBytes (1 <<< (head.toNat / 64)) (head :: tail)) :
    ∃ pkt, quicVariableLengthDecode { past, rest := head :: tail } = (.error .ret, pkt) := by
  obtain ⟨n, hn⟩ : ∃ n, 1 <<< (head.toNat / 64) = n + 1 := by
    refine Nat.exists_eq_succ_of_ne_zero (Nat.ne_of_gt ?_)
    rw [Nat.shiftLeft_eq, Nat.one_mul]
    exact Nat.pow_pos Nat.two_pos
  rw [quicVariableLengthDecode]
  by_cases hcheck : quicLt ((head :: tail).length : ℕ) 1
  · exact ⟨_, Prog.bind_of_error (rPacketGet1_cons_eq.trans (if_pos hcheck))⟩
  · rw [Prog.bind_of_ok (rPacketGet1_cons_eq.trans (if_neg hcheck)), hn, Nat.add_sub_cancel]
    rw [hn] at h
    refine varLengthTail_of_not_sees (h.imp (fun h => ?_) fun h hsees =>
      h (SeesBytes.cons.mpr ⟨hcheck, hsees⟩)) _ _
    rw [List.length_cons] at h
    omega

/-- A number is read. -/
theorem decode_append (v : VarLength) (past : List UInt8) {rest : List UInt8}
    (hrest : (v.bytes ++ rest).length < 2 ^ 31) :
    quicVariableLengthDecode { past, rest := v.bytes ++ rest } =
      (.ok v.value, { past := past ++ v.bytes, rest }) :=
  v.decode_of_sees past rest (.of_length hrest.le)

/-- The smallest encoding of a number. -/
def ofNat (v : ℕ) (h : v < 2 ^ 62) : VarLength where
  head := UInt8.ofNat (varLengthPrefix v 3 * 64 + varLengthHead v)
  tail := Bytes.ofNat (varLengthSize v - 1) v
  tail_length := by
    have hhead := varLengthHead_lt h
    have hpre := varLengthPrefix_lt v
    have hdiv : (UInt8.ofNat (varLengthPrefix v 3 * 64 + varLengthHead v)).toNat / 64 =
        varLengthPrefix v 3 := by
      rw [UInt8.toNat_ofNat']
      omega
    rw [Bytes.ofNat_length, hdiv, shiftLeft_varLengthPrefix]

/-- Its bytes are those that are written. -/
theorem ofNat_bytes {v : ℕ} (h : v < 2 ^ 62) : (ofNat v h).bytes = varLengthBytes v := rfl

/-- Its value is the number. -/
theorem ofNat_value {v : ℕ} (h : v < 2 ^ 62) : (ofNat v h).value = v := by
  have hhead := varLengthHead_lt h
  have hpre := varLengthPrefix_lt v
  have hmod : (UInt8.ofNat (varLengthPrefix v 3 * 64 + varLengthHead v)).toNat % 64 =
      varLengthHead v := by
    rw [UInt8.toNat_ofNat']
    omega
  rw [value, ofNat, hmod, Bytes.ofNat_length, Bytes.toNat_ofNat, varLengthHead, Nat.div_add_mod']

/-- Numbers at the start of equal byte strings are equal. -/
theorem append_inj {v w : VarLength} {a b : List UInt8} (h : v.bytes ++ a = w.bytes ++ b) :
    v = w ∧ a = b := by
  rw [bytes, bytes, List.cons_append, List.cons_append, List.cons.injEq] at h
  have hlength : v.tail.length = w.tail.length := by
    rw [v.tail_length, w.tail_length, h.1]
  obtain ⟨htail, hrest⟩ := List.append_inj h.2 hlength
  refine ⟨?_, hrest⟩
  cases v
  cases w
  cases h.1
  cases htail
  rfl

/-- Some bytes start with a number of which not all bytes are there. -/
def Truncated (bytes : List UInt8) : Prop :=
  ∃ head tail, bytes = head :: tail ∧ tail.length < 1 <<< (head.toNat / 64) - 1

/-- A number that is there is not truncated. -/
theorem not_truncated (v : VarLength) (rest : List UInt8) : ¬ Truncated (v.bytes ++ rest) := by
  rintro ⟨head, tail, hbytes, hlength⟩
  rw [bytes, List.cons_append, List.cons.injEq] at hbytes
  rw [← hbytes.1, ← hbytes.2, List.length_append, v.tail_length] at hlength
  omega

end VarLength

/-- Decoding an encoded number returns it and leaves the bytes after it. -/
theorem quicVariableLengthDecode_append (past : List UInt8) {rest : List UInt8} {length : ℕ}
    (h : length < 2 ^ 62) (hrest : (varLengthBytes length ++ rest).length < 2 ^ 31) :
    quicVariableLengthDecode { past, rest := varLengthBytes length ++ rest } =
      (.ok length, { past := past ++ varLengthBytes length, rest }) := by
  have hread := (VarLength.ofNat length h).decode_append past hrest
  rw [VarLength.ofNat_value, VarLength.ofNat_bytes] at hread
  exact hread

/-- A number is read, or the packet ends before its last byte. -/
theorem quicVariableLengthDecode_cases (past : List UInt8) {rest : List UInt8}
    (hrest : rest.length < 2 ^ 31) :
    (∃ (v : VarLength) (after : List UInt8), rest = v.bytes ++ after ∧
      quicVariableLengthDecode { past, rest } =
        (.ok v.value, { past := past ++ v.bytes, rest := after })) ∨
    (rest = [] ∨ VarLength.Truncated rest) ∧
      ∃ pkt, quicVariableLengthDecode { past, rest } = (.error .ret, pkt) := by
  cases rest with
  | nil =>
    refine Or.inr ⟨Or.inl rfl, { past, rest := [] }, ?_⟩
    rw [quicVariableLengthDecode, Prog.bind_of_error rPacketGet1_nil]
  | cons head tail =>
    rcases Nat.lt_or_ge tail.length (1 <<< (head.toNat / 64) - 1) with hshort | hlong
    · refine Or.inr ⟨Or.inr ⟨head, tail, rfl, hshort⟩, VarLength.decode_of_not_sees (.inl ?_)⟩
      rw [List.length_cons]
      omega
    · let v : VarLength := ⟨head, tail.take (1 <<< (head.toNat / 64) - 1),
        List.length_take_of_le hlong⟩
      have hsplit : head :: tail = v.bytes ++ tail.drop (1 <<< (head.toNat / 64) - 1) := by
        rw [VarLength.bytes, List.cons_append, List.take_append_drop]
      refine Or.inl ⟨v, _, hsplit, ?_⟩
      rw [hsplit] at hrest ⊢
      exact v.decode_append past hrest

/-- One byte is read, or the packet is at its end. -/
theorem rPacketGet1_post (pkt : RPacket) :
    Prog.Post rPacketGet1 (fun v _ => v < 256) (fun e _ => e = .ret) pkt := by
  unfold rPacketGet1 rPacketGetData rPacketGetBytes
  simp only [Prog.post_bind, Prog.post_modify, Prog.post_pure]
  unfold Prog.Post rPacketPeekBytes
  split_ifs with hcheck hlen
  · trivial
  · have hempty : pkt.remaining = 0 := by omega
    rw [hempty] at hcheck
    exact absurd (by decide) hcheck
  · dsimp only
    have hlt := Bytes.toNat_lt (pkt.rest.take 1)
    refine hlt.trans_le ?_
    calc 256 ^ (pkt.rest.take 1).length ≤ 256 ^ 1 :=
          Nat.pow_le_pow_right (by decide) (List.length_take_le 1 pkt.rest)
      _ = 256 := by decide

/-- The bytes behind the first are accumulated, or the packet ends before. -/
theorem varLengthTail_post (i : ℕ) {length : ℕ} (hbound : (length + 1) * 256 ^ i ≤ 2 ^ 64)
    (pkt : RPacket) :
    Prog.Post (varLengthTail i length) (fun v _ => v < (length + 1) * 256 ^ i)
      (fun e _ => e = .ret) pkt := by
  induction i generalizing length pkt with
  | zero =>
    rw [varLengthTail, Prog.post_pure]
    omega
  | succ i ih =>
    rw [varLengthTail, Prog.post_bind]
    refine (rPacketGet1_post pkt).mono (fun v t hv => ?_) fun _ _ h => h
    have hpow : 1 ≤ 256 ^ i := Nat.one_le_pow i 256 (by decide)
    rw [Nat.pow_succ', ← Nat.mul_assoc] at hbound ⊢
    have hle : (length + 1) * 256 ≤ (length + 1) * 256 * 256 ^ i := Nat.le_mul_of_pos_right _ hpow
    have hshift : varLengthShift length v + 1 ≤ (length + 1) * 256 := by
      rw [varLengthShift, Nat.shiftLeft_eq]
      omega
    have hnext := Nat.mul_le_mul_right (256 ^ i) hshift
    refine (ih (hnext.trans hbound) t).mono (fun w _ hw => ?_) fun _ _ h => h
    exact hw.trans_le hnext

/-- A number that is read has 62 bits. -/
theorem quicVariableLengthDecode_post (pkt : RPacket) :
    Prog.Post quicVariableLengthDecode (fun v _ => v < 2 ^ 62) (fun e _ => e = .ret) pkt := by
  rw [quicVariableLengthDecode, Prog.post_bind]
  refine (rPacketGet1_post pkt).mono (fun v t hv => ?_) fun _ _ h => h
  have hsize : 1 <<< (v / 64) - 1 ≤ 7 := by
    have hfield : v / 64 = 0 ∨ v / 64 = 1 ∨ v / 64 = 2 ∨ v / 64 = 3 := by omega
    rcases hfield with h | h | h | h <;> rw [h] <;> decide
  have hpow : (v % 64 + 1) * 256 ^ (1 <<< (v / 64) - 1) ≤ 2 ^ 62 := by
    calc (v % 64 + 1) * 256 ^ (1 <<< (v / 64) - 1) ≤ 64 * 256 ^ 7 :=
          Nat.mul_le_mul (by omega) (Nat.pow_le_pow_right (by decide) hsize)
      _ = 2 ^ 62 := by decide
  refine (varLengthTail_post _ (hpow.trans (by decide)) t).mono (fun w _ hw => ?_) fun _ _ h => h
  exact hw.trans_le hpow

/-- A number that is read stood at the start of the packet. -/
theorem quicVariableLengthDecode_bytes {pkt : RPacket} (hpkt : pkt.rest.length < 2 ^ 31) :
    Prog.Post quicVariableLengthDecode
      (fun n t => ∃ v : VarLength, n = v.value ∧ pkt.rest = v.bytes ++ t.rest)
      (fun e _ => e = .ret) pkt := by
  rcases quicVariableLengthDecode_cases pkt.past hpkt with ⟨v, after, hrest, hread⟩ | ⟨_, t, hread⟩
  · rw [Prog.post_of_eq hread]
    exact ⟨v, rfl, hrest⟩
  · rw [Prog.post_of_error hread]

end Tbquic
