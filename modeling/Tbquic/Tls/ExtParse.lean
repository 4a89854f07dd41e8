import Tbquic.Tls.Extensions

/-!
# The rounds over the table of extensions

`TlsParseExtensions` makes a round for each entry of its table. What a round finds is a fact about
the block, so that the rounds call the parsers of the types that stand in it.
-/

namespace Tbquic

section Runs

variable {τ : Type} {behind past block : List UInt8} {context i : ℕ} {s : TlsExtState τ}
  {p : TlsExtParse τ} {ext before after : List (TlsExtParse τ)}

/-- A type that is not for the message at hand is passed over. -/
theorem tlsParseExt_of_not (h : tlsShouldParseExtension p.context context = false) :
    tlsParseExt behind context i p s = (.ok (), s) := by
  rw [tlsParseExt, if_pos h]
  rfl

/-- The parser gets what is found for its type. -/
theorem tlsParseExt_eq (h : tlsShouldParseExtension p.context context = true)
    (hs : s.pkt = ⟨past, block⟩) (hsize : block.length < 2 ^ 31) :
    tlsParseExt behind context i p s =
      match extFound behind past block p.type with
      | .error e => (.error e, s)
      | .ok none => (.ok (), s)
      | .ok (some data) => TlsExtState.onHost (p.parse data) (s.record (i, data)) := by
  have hscan := @tlsExtScan_eq behind p.type (block.length + 1) past block (Nat.lt_succ_self _)
    hsize
  rw [tlsParseExt, if_neg (by rw [h]; decide), Prog.get_bind, hs, RPacket.remaining, hscan]
  cases extFound behind past block p.type with
  | error e =>
    rw [Prog.ofExcept_error, Prog.fail_bind]
    rfl
  | ok found =>
    rw [Prog.ofExcept_ok, Prog.pure_bind]
    cases found with
    | none => rfl
    | some data =>
      dsimp only
      rw [Prog.modify_bind]

/-- What a round does: no parser is called, or one with what is found. -/
structure Round (behind past block : List UInt8) (context i : ℕ) (p : TlsExtParse τ)
    (s t : TlsExtState τ) (r : Except Fail Unit) : Prop where
  /-- The message is not read. -/
  pkt : t.pkt = s.pkt
  /-- The calls of before are there, and one more at most. -/
  calls : t.calls = s.calls ∨ ∃ data, tlsShouldParseExtension p.context context = true ∧
    extFound behind past block p.type = .ok (some data) ∧ t.calls = s.calls ++ [(i, data)]
  /-- A round that succeeds calls the parser if there is something for it. -/
  ok : r = .ok () → tlsShouldParseExtension p.context context = true →
    ∃ found, extFound behind past block p.type = .ok found ∧
      ∀ data ∈ found, (i, data) ∈ t.calls
  /-- A round fails without a parser only when the block is broken. -/
  error : (∀ data host, p.parse data host = (.ok (), host)) → ∀ e, r = .error e →
    tlsShouldParseExtension p.context context = true ∧
      extFound behind past block p.type = .error e

/-- What a round does. -/
theorem tlsParseExt_round (p : TlsExtParse τ) (hs : s.pkt = ⟨past, block⟩)
    (hsize : block.length < 2 ^ 31) :
    Round behind past block context i p s (tlsParseExt behind context i p s).2
      (tlsParseExt behind context i p s).1 := by
  by_cases hshould : tlsShouldParseExtension p.context context = true
  · rw [tlsParseExt_eq hshould hs hsize]
    cases hfound : extFound behind past block p.type with
    | error e =>
      refine ⟨rfl, .inl rfl, nofun, fun _ e' he => ⟨hshould, ?_⟩⟩
      cases he
      exact hfound
    | ok found =>
      cases found with
      | none => exact ⟨rfl, .inl rfl, fun _ _ => ⟨none, hfound, nofun⟩, nofun⟩
      | some data =>
        refine ⟨rfl, .inr ⟨data, hshould, hfound, rfl⟩, fun _ _ => ⟨some data, hfound, ?_⟩, ?_⟩
        · rintro _ ⟨⟩
          exact List.mem_append_right _ (List.mem_singleton.mpr rfl)
        · intro haccept e he
          dsimp only [TlsExtState.onHost] at he
          rw [Prog.zoom_apply, haccept] at he
          cases he
  · rw [Bool.not_eq_true] at hshould
    rw [tlsParseExt_of_not hshould]
    exact ⟨rfl, .inl rfl, fun _ h => absurd (hshould.symm.trans h) Bool.false_ne_true, nofun⟩

/-- What the rounds do. -/
structure Rounds (behind past block : List UInt8) (context i : ℕ) (ext : List (TlsExtParse τ))
    (s t : TlsExtState τ) (r : Except Fail Unit) : Prop where
  /-- The message is not read. -/
  pkt : t.pkt = s.pkt
  /-- The calls of before are there. -/
  mono : ∀ call ∈ s.calls, call ∈ t.calls
  /-- The calls are for what is found. -/
  calls : ∀ call ∈ t.calls, call ∈ s.calls ∨ ∃ k p, ext[k]? = some p ∧ call.1 = i + k ∧
    tlsShouldParseExtension p.context context = true ∧
    extFound behind past block p.type = .ok (some call.2)
  /-- Rounds that succeed call all parsers for which something is found. -/
  ok : r = .ok () → ∀ k p, ext[k]? = some p → tlsShouldParseExtension p.context context = true →
    ∃ found, extFound behind past block p.type = .ok found ∧ ∀ data ∈ found, (i + k, data) ∈ t.calls
  /-- Rounds with parsers that accept everything fail at the first type for which the block is
  broken. -/
  error : (∀ p ∈ ext, ∀ data host, p.parse data host = (.ok (), host)) → ∀ e, r = .error e →
    ∃ before p after, ext = before ++ p :: after ∧
      tlsShouldParseExtension p.context context = true ∧
      extFound behind past block p.type = .error e ∧
      ∀ k q, before[k]? = some q → tlsShouldParseExtension q.context context = true →
        ∃ found, extFound behind past block q.type = .ok found ∧
          ∀ data ∈ found, (i + k, data) ∈ t.calls

/-- What the rounds do. -/
theorem tlsParseExts_rounds (hs : s.pkt = ⟨past, block⟩) (hsize : block.length < 2 ^ 31) :
    Rounds behind past block context i ext s (tlsParseExts behind context i ext s).2
      (tlsParseExts behind context i ext s).1 := by
  induction ext generalizing i s with
  | nil => exact ⟨rfl, fun _ h => h, fun _ h => .inl h, nofun, nofun⟩
  | cons p ext ih =>
    have hround := @tlsParseExt_round τ behind past block context i s p hs hsize
    rcases hrun : tlsParseExt behind context i p s with ⟨r, t⟩
    rw [hrun] at hround
    have hmono : ∀ call ∈ s.calls, call ∈ t.calls := by
      intro call hcall
      rcases hround.calls with heq | ⟨_, _, _, heq⟩
      · rw [heq]
        exact hcall
      · rw [heq]
        exact List.mem_append_left _ hcall
    have hcalls : ∀ call ∈ t.calls, call ∈ s.calls ∨ ∃ k q, (p :: ext)[k]? = some q ∧
        call.1 = i + k ∧ tlsShouldParseExtension q.context context = true ∧
        extFound behind past block q.type = .ok (some call.2) := by
      intro call hcall
      rcases hround.calls with heq | ⟨data, hshould, hfound, heq⟩
      · rw [heq] at hcall
        exact .inl hcall
      · rw [heq] at hcall
        rcases List.mem_append.mp hcall with hcall | hcall
        · exact .inl hcall
        · rw [List.mem_singleton.mp hcall]
          exact .inr ⟨0, p, rfl, rfl, hshould, hfound⟩
    rw [tlsParseExts]
    cases r with
    | error e =>
      rw [Prog.bind_of_error hrun]
      refine ⟨hround.pkt, hmono, hcalls, nofun, fun haccept e' he => ?_⟩
      cases he
      obtain ⟨hshould, hfound⟩ := hround.error (haccept p List.mem_cons_self) e rfl
      exact ⟨[], p, ext, rfl, hshould, hfound, nofun⟩
    | ok u =>
      rw [Prog.bind_of_ok hrun]
      have hrest := ih (i := i + 1) (hround.pkt.trans hs)
      refine ⟨hrest.pkt.trans hround.pkt, fun call h => hrest.mono call (hmono call h), ?_, ?_, ?_⟩
      · intro call hcall
        rcases hrest.calls call hcall with hcall | ⟨k, q, hq, hcall, hq'⟩
        · exact hcalls call hcall
        · exact .inr ⟨k + 1, q, hq, by rw [hcall]; omega, hq'⟩
      · intro hok k q hq hshould
        cases k with
        | zero =>
          cases hq
          obtain ⟨found, hfound, hmem⟩ := hround.ok rfl hshould
          exact ⟨found, hfound, fun data hdata => hrest.mono _ (hmem data hdata)⟩
        | succ k =>
          have h := hrest.ok hok k q hq hshould
          rwa [Nat.add_right_comm, Nat.add_assoc] at h
      · intro haccept e he
        obtain ⟨before, q, after, rfl, hshould, hfound, hbefore⟩ :=
          hrest.error (fun q hq => haccept q (List.mem_cons_of_mem _ hq)) e he
        refine ⟨p :: before, q, after, rfl, hshould, hfound, fun k q' hq' hshould' => ?_⟩
        cases k with
        | zero =>
          cases hq'
          obtain ⟨found, hfound, hmem⟩ := hround.ok rfl hshould'
          exact ⟨found, hfound, fun data hdata => hrest.mono _ (hmem data hdata)⟩
        | succ k =>
          have h := hbefore k q' hq' hshould'
          rwa [Nat.add_right_comm, Nat.add_assoc] at h

end Runs

section Whole

variable {τ : Type} {behind block : List UInt8} {context : ℕ} {s : TlsExtState τ}
  {ext : List (TlsExtParse τ)}

/-- The state behind the length of the block. -/
def TlsExtState.behindLength (block : List UInt8) (s : TlsExtState τ) : TlsExtState τ :=
  { s with pkt := ⟨s.pkt.past ++ Bytes.ofNat 2 block.length, block⟩ }

/-- The length of a block is checked. -/
theorem tlsExtLenParse_of_block (past : List UInt8) (hblock : block.length < 256 ^ 2) :
    tlsExtLenParse ⟨past, Bytes.ofNat 2 block.length ++ block⟩ =
      (.ok (), ⟨past ++ Bytes.ofNat 2 block.length, block⟩) := by
  have hlen := @rPacketGetData_append past block 2 _ hblock (hblock.trans (by decide))
  rw [tlsExtLenParse, rPacketGet2, Prog.bind_of_ok hlen, Prog.get_bind, RPacket.remaining,
    Prog.ensure_of_pos rfl]
  rfl

/-- A block of the length that it declares is parsed by the rounds. -/
theorem tlsParseExtensions_of_block (hblock : block.length < 256 ^ 2)
    (hs : s.pkt.rest = Bytes.ofNat 2 block.length ++ block) :
    (tlsParseExtensions behind context ext s).1 =
        (tlsParseExts behind context 0 ext (s.behindLength block)).1 ∧
      (tlsParseExtensions behind context ext s).2.calls =
        (tlsParseExts behind context 0 ext (s.behindLength block)).2.calls ∧
      (tlsParseExtensions behind context ext s).2.host =
        (tlsParseExts behind context 0 ext (s.behindLength block)).2.host := by
  have hlen : TlsExtState.onPkt tlsExtLenParse s = (.ok (), s.behindLength block) := by
    have h := tlsExtLenParse_of_block s.pkt.past hblock
    rw [← hs] at h
    exact Prog.zoom_of_ok h
  have hsize : block.length < 2 ^ 31 := hblock.trans (by decide)
  have hrounds := @tlsParseExts_rounds τ behind (s.pkt.past ++ Bytes.ofNat 2 block.length) block
    context 0 (s.behindLength block) ext rfl hsize
  rw [tlsParseExtensions, Prog.bind_of_ok hlen]
  rcases hrun : tlsParseExts behind context 0 ext (s.behindLength block) with ⟨r, t⟩
  rw [hrun] at hrounds
  cases r with
  | error e =>
    rw [Prog.bind_of_error hrun]
    exact ⟨rfl, rfl, rfl⟩
  | ok u =>
    have hpull := @ignoreRet_rPacketPull (s.pkt.past ++ Bytes.ofNat 2 block.length) block
      block.length hsize hsize
    have hpkt : t.pkt = ⟨s.pkt.past ++ Bytes.ofNat 2 block.length, block⟩ := hrounds.pkt
    obtain ⟨pkt, hend⟩ : ∃ pkt, TlsExtState.onPkt (ignoreRet (rPacketPull t.pkt.remaining)) t =
        (.ok (), { t with pkt }) := by
      rw [hpkt]
      exact ⟨_, Prog.zoom_of_ok (by rw [hpkt]; exact hpull)⟩
    rw [Prog.bind_of_ok hrun, Prog.get_bind, hend]
    exact ⟨rfl, rfl, rfl⟩

/-- Two parts with a length of two bytes are the same. -/
theorem block_eq {len len' : ℕ} {block block' : List UInt8}
    (h : Bytes.ofNat 2 len ++ block = Bytes.ofNat 2 len' ++ block') : block = block' :=
  (List.append_inj h (by rw [Bytes.ofNat_length, Bytes.ofNat_length])).2

end Whole

end Tbquic
