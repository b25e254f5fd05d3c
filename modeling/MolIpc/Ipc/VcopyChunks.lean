import MolIpc.Admin.Tables
import MolIpc.Copy.Blocks
import MolIpc.Ipc.Vcopy

/-!
The chunks of a copy. `mm_vcopy` has one loop for each of the four placements of the source and of
the destination; they differ in the limit of a chunk and in what copies it. A loop whose limit is
positive cuts the two ranges in order and ends. Neither `mm_dvs_init` nor `mm_proxies_bind` asks
for that: they only have upper bounds, and a loop with the limit 0 never gets further. The loops
with another node do not end either when a wait of a third process fails.
-/

namespace MolIpc

variable {cf : Conf}

/-! ### What the administration accepts -/

/-- The numbers of `dvs_usr_t` that `mm_dvs_init` checks. -/
structure DvsUsr where
  nrDcs : ℤ
  nrNodes : ℤ
  nrProcs : ℤ
  nrTasks : ℤ
  nrSysprocs : ℤ
  maxCopybuf : ℤ
  maxCopylen : ℤ

/-- The checks of `mm_dvs_init`. -/
def DvsUsr.check (d : DvsUsr) : ℤ :=
  if d.nrDcs ≤ 0 ∨ 32 < d.nrDcs then EMol.badrange
  else if d.nrNodes ≤ 0 ∨ 32 < d.nrNodes then EMol.badrange
  else if d.nrProcs ≤ 0 ∨ 221 < d.nrProcs then EMol.badrange
  else if d.nrTasks ≤ 0 ∨ 35 < d.nrTasks then EMol.badrange
  else if d.nrSysprocs ≤ 0 ∨ 64 < d.nrSysprocs then EMol.badrange
  else if d.nrProcs + d.nrTasks ≤ d.nrSysprocs then EMol.badrange
  else if d.nrSysprocs ≤ d.nrTasks then EMol.badrange
  else if 65536 < d.maxCopybuf then EMol.badvalue
  else if maxCopyLen < d.maxCopylen then EMol.badvalue
  else if d.maxCopylen < d.maxCopybuf then EMol.badvalue
  else EMol.ok

theorem DvsUsr.maxCopybuf_le {d : DvsUsr} (h : d.check = EMol.ok) : d.maxCopybuf ≤ 65536 := by
  by_contra hlt
  unfold check at h
  simp only [show 65536 < d.maxCopybuf by omega, if_true] at h
  split_ifs at h <;> exact absurd h (by decide)

/-- `mm_dvs_init` has accepted the sizes, and `mm_proxies_bind` those of the proxies; a pair never
bound has none. -/
structure Conf.Accepted (cf : Conf) : Prop where
  dvs : ∃ d : DvsUsr, d.check = EMol.ok ∧ d.maxCopybuf = cf.dMaxCopybuf ∧
    d.maxCopylen = cf.dMaxCopylen ∧ d.nrNodes = cf.dNrNodes ∧ d.nrDcs = cf.dNrDcs
  px (p : ℤ) : cf.pxMaxbytes p = 0 ∨ ∃ (s : Dvs) (q spid rpid : ℤ) (found : Bool),
    (s.proxiesBind q spid rpid (cf.pxMaxbytes p) found).2 = EMol.ok

/-! ### The loops -/

/-- Where the source and the destination of a copy are. -/
inductive Placement
  | lclLcl
  | lclRmt (dnode : ℤ)
  | rmtLcl (snode : ℤ)
  | rmtRmt (snode dnode : ℤ)
  deriving DecidableEq, Repr

def Placement.of (s d : Proc) : Placement :=
  if ¬ s.rts.remote then if ¬ d.rts.remote then .lclLcl else .lclRmt d.nodeid
  else if ¬ d.rts.remote then .rmtLcl s.nodeid
  else .rmtRmt s.nodeid d.nodeid

def Conf.limit (cf : Conf) : Placement → ℤ
  | .lclLcl => cf.dMaxCopybuf
  | .lclRmt dnode => cf.maxbytes dnode
  | .rmtLcl snode => cf.maxbytes snode
  | .rmtRmt _ _ => cf.dMaxCopybuf

/-- The result of the `k`-th copy on one node: `copy_usr2usr` refuses a length out of its range;
else it is what `res` says. -/
def copyTurn (res : ℕ → ℤ) (k : ℕ) (len : ℤ) : ℤ :=
  if len < 0 ∨ maxCopyLen < len then EMol.range else res k

theorem copyTurn_eq (source : ℤ) (gup : ℕ → Bool) (sf df : ℕ → ℕ) (sa da k : ℕ) (len : ℤ)
    (r : Copy.Run) :
    (Copy.copyUsr2usr source gup sf sa df da len r).2 =
      copyTurn (fun _ => (Copy.copyLoop source (.user sf) (.user df) gup sa da len.toNat r).2) k
        len := by
  unfold Copy.copyUsr2usr copyTurn
  by_cases hlen : len < 0 ∨ maxCopyLen < len
  · rw [if_pos hlen, if_pos hlen]
  · rw [if_neg hlen, if_neg hlen]

structure Piece where
  saddr : ℕ
  daddr : ℕ
  len : ℤ
  deriving DecidableEq, Repr

namespace VcopyCall

/-- `copylen`. -/
def pieceLen (limit : ℤ) (v : VcopyCall) : ℤ := if limit < v.bytes then limit else v.bytes

def piece (limit : ℤ) (v : VcopyCall) : Piece := ⟨v.saddr, v.daddr, v.pieceLen limit⟩

section Loop

variable (limit : ℤ) (turn : ℕ → ℤ → ℤ)

/-- `while (bytes > 0)` on one node, for at most `fuel` tests: the chunks and the last result. -/
def loop : ℕ → ℕ → VcopyCall → Option (List Piece × ℤ)
  | 0, _, _ => none
  | fuel + 1, k, v =>
    if v.bytes ≤ 0 then some ([], EMol.ok)
    else
      let len := v.pieceLen limit
      let ret := turn k len
      if ret ≠ EMol.ok then some ([v.piece limit], ret)
      else (loop fuel (k + 1) (v.advance len)).map fun r => (v.piece limit :: r.1, r.2)

/-- The chunks are not empty, keep to the limit, and one behind the other they are the two
ranges. -/
structure Partition (v : VcopyCall) (ps : List Piece) : Prop where
  pos (p : Piece) : p ∈ ps → 0 < p.len
  le (p : Piece) : p ∈ ps → p.len ≤ limit
  src : ps.flatMap (fun p => List.range' p.saddr p.len.toNat) = List.range' v.saddr v.bytes.toNat
  dst : ps.flatMap (fun p => List.range' p.daddr p.len.toNat) = List.range' v.daddr v.bytes.toNat

/-- The loop ends, and if all its turns succeed the chunks are those of the request. -/
structure Chunked (v : VcopyCall) : Prop where
  ends : ∃ fuel, (loop limit turn fuel 0 v).isSome
  partition (fuel : ℕ) (ps : List Piece) :
    loop limit turn fuel 0 v = some (ps, EMol.ok) → Partition limit v ps

end Loop

section Partition

variable {limit : ℤ} {turn : ℕ → ℤ → ℤ} {v : VcopyCall} {k : ℕ}

theorem loop_of_le (h : v.bytes ≤ 0) (fuel k : ℕ) :
    loop limit turn (fuel + 1) k v = some ([], EMol.ok) := if_pos h

theorem loop_of_fail (h : 0 < v.bytes) (ht : turn k (v.pieceLen limit) ≠ EMol.ok) (fuel : ℕ) :
    loop limit turn (fuel + 1) k v = some ([v.piece limit], turn k (v.pieceLen limit)) := by
  rw [loop, if_neg (by omega)]
  exact if_pos ht

theorem loop_of_ok (h : 0 < v.bytes) (ht : turn k (v.pieceLen limit) = EMol.ok) (fuel : ℕ) :
    loop limit turn (fuel + 1) k v =
      (loop limit turn fuel (k + 1) (v.advance (v.pieceLen limit))).map
        fun r => (v.piece limit :: r.1, r.2) := by
  rw [loop, if_neg (by omega)]
  exact if_neg (not_not.2 ht)

theorem pieceLen_le (v : VcopyCall) : v.pieceLen limit ≤ limit := by unfold pieceLen; omega

theorem pieceLen_le_bytes (v : VcopyCall) : v.pieceLen limit ≤ v.bytes := by
  unfold pieceLen; omega

theorem pieceLen_pos (hl : 0 < limit) (h : 0 < v.bytes) : 0 < v.pieceLen limit := by
  unfold pieceLen; omega

theorem Partition.nil (h : v.bytes = 0) : Partition limit v [] := by
  refine ⟨nofun, nofun, ?_, ?_⟩ <;> simp [h]

theorem Partition.cons {ps : List Piece} (hl : 0 < limit) (h : 0 < v.bytes)
    (hp : Partition limit (v.advance (v.pieceLen limit)) ps) :
    Partition limit v (v.piece limit :: ps) := by
  have hpos := pieceLen_pos hl h
  have hle : v.pieceLen limit ≤ v.bytes := pieceLen_le_bytes v
  have hsum : v.bytes.toNat = (v.pieceLen limit).toNat + (v.bytes - v.pieceLen limit).toNat := by
    omega
  refine ⟨?_, ?_, ?_, ?_⟩
  · rintro p (_ | ⟨_, hmem⟩)
    exacts [hpos, hp.pos p hmem]
  · rintro p (_ | ⟨_, hmem⟩)
    exacts [pieceLen_le v, hp.le p hmem]
  · rw [List.flatMap_cons, hp.src, hsum]
    exact List.range'_append_1
  · rw [List.flatMap_cons, hp.dst, hsum]
    exact List.range'_append_1

/-- **With a positive limit the loop ends**: a turn takes at least one byte. -/
theorem loop_isSome (hl : 0 < limit) : ∀ (fuel k : ℕ) (v : VcopyCall), v.bytes.toNat < fuel →
    (loop limit turn fuel k v).isSome := by
  intro fuel
  induction fuel with
  | zero => exact fun _ _ h => absurd h (Nat.not_lt_zero _)
  | succ fuel ih =>
    intro k v h
    by_cases hb : v.bytes ≤ 0
    · rw [loop_of_le hb]
      rfl
    have hpos : 0 < v.pieceLen limit := pieceLen_pos hl (by omega)
    by_cases ht : turn k (v.pieceLen limit) = EMol.ok
    · rw [loop_of_ok (by omega) ht, Option.isSome_map]
      refine ih _ _ ?_
      show (v.bytes - v.pieceLen limit).toNat < fuel
      omega
    · rw [loop_of_fail (by omega) ht]
      rfl

/-- **With a positive limit the chunks are the request.** -/
theorem loop_partition (hl : 0 < limit) : ∀ (fuel k : ℕ) (v : VcopyCall) (ps : List Piece),
    0 ≤ v.bytes → loop limit turn fuel k v = some (ps, EMol.ok) → Partition limit v ps := by
  intro fuel
  induction fuel with
  | zero => exact fun k v ps _ h => nomatch h
  | succ fuel ih =>
    intro k v ps h0 h
    by_cases hb : v.bytes ≤ 0
    · rw [loop_of_le hb] at h
      obtain ⟨rfl, -⟩ := Prod.mk.inj (Option.some.inj h)
      exact Partition.nil (by omega)
    have hb' : 0 < v.bytes := by omega
    by_cases ht : turn k (v.pieceLen limit) = EMol.ok
    · rw [loop_of_ok hb' ht] at h
      obtain ⟨⟨ps', code⟩, hrest, heq⟩ := Option.map_eq_some_iff.1 h
      obtain ⟨rfl, rfl⟩ := Prod.mk.inj heq
      refine Partition.cons hl hb' (ih _ _ _ ?_ hrest)
      show 0 ≤ v.bytes - v.pieceLen limit
      have : v.pieceLen limit ≤ v.bytes := pieceLen_le_bytes v
      omega
    · rw [loop_of_fail hb' ht] at h
      exact absurd (Prod.mk.inj (Option.some.inj h)).2 ht

theorem chunked_of_pos (hl : 0 < limit) (h : 0 ≤ v.bytes) : Chunked limit turn v :=
  ⟨⟨v.bytes.toNat + 1, loop_isSome hl _ _ _ (by omega)⟩,
    fun fuel ps => loop_partition hl fuel 0 v ps h⟩

theorem chunked_of_zero (h : v.bytes = 0) : Chunked limit turn v := by
  refine ⟨⟨1, by rw [loop_of_le (Int.le_of_eq h)]; rfl⟩, fun fuel ps heq => ?_⟩
  cases fuel with
  | zero => exact nomatch heq
  | succ fuel =>
    rw [loop_of_le (Int.le_of_eq h)] at heq
    obtain ⟨rfl, -⟩ := Prod.mk.inj (Option.some.inj heq)
    exact Partition.nil h

theorem chunked_of_fail (h : 0 < v.bytes) (ht : turn 0 (v.pieceLen limit) ≠ EMol.ok) :
    Chunked limit turn v := by
  refine ⟨⟨1, by rw [loop_of_fail h ht]; rfl⟩, fun fuel ps heq => ?_⟩
  cases fuel with
  | zero => exact nomatch heq
  | succ fuel =>
    rw [loop_of_fail h ht] at heq
    exact absurd (Prod.mk.inj (Option.some.inj heq)).2 ht

/-- **Without a positive limit the loop does not end** as long as its turns succeed. (A negative one
makes the bytes left more.) -/
theorem loop_none (hl : limit ≤ 0) (ht : ∀ k, turn k limit = EMol.ok) :
    ∀ (fuel k : ℕ) (v : VcopyCall), 0 < v.bytes → loop limit turn fuel k v = none := by
  intro fuel
  induction fuel with
  | zero => exact fun _ _ _ => rfl
  | succ fuel ih =>
    intro k v hb
    have hlen : v.pieceLen limit = limit := if_pos (by omega)
    rw [loop_of_ok hb (by rw [hlen, ht k]), ih _ _ ?_]
    · rfl
    · show 0 < v.bytes - v.pieceLen limit
      omega

end Partition

end VcopyCall

/-! ### The loop on one node -/

/-- With a copy buffer that is accepted and not empty, `copy_usr2usr` refuses no chunk. -/
theorem Conf.Accepted.loop_turn (h : cf.Accepted) (hl : 0 < cf.dMaxCopybuf) (res : ℕ → ℤ) :
    ∀ (fuel k : ℕ) (v : VcopyCall), VcopyCall.loop cf.dMaxCopybuf (copyTurn res) fuel k v =
      VcopyCall.loop cf.dMaxCopybuf (fun k _ => res k) fuel k v := by
  obtain ⟨d, hd, hbuf, -⟩ := h.dvs
  have hmax : cf.dMaxCopybuf ≤ 65536 := hbuf ▸ DvsUsr.maxCopybuf_le hd
  intro fuel
  induction fuel with
  | zero => exact fun _ _ => rfl
  | succ fuel ih =>
    intro k v
    by_cases hb : v.bytes ≤ 0
    · rw [VcopyCall.loop_of_le hb, VcopyCall.loop_of_le hb]
    have hturn : copyTurn res k (v.pieceLen cf.dMaxCopybuf) = res k := by
      have hpos : 0 < v.pieceLen cf.dMaxCopybuf := VcopyCall.pieceLen_pos hl (by omega)
      have hle : v.pieceLen cf.dMaxCopybuf ≤ cf.dMaxCopybuf := VcopyCall.pieceLen_le v
      refine if_neg fun hr => ?_
      unfold maxCopyLen at hr
      omega
    simp only [VcopyCall.loop, hturn, ih]

namespace Node

variable {n : Node} {v : VcopyCall}

def copyPiece (n : Node) (v : VcopyCall) (p : Piece) : Node :=
  n.modProc v.dstNr fun q =>
    { q with mem := q.mem.blit p.daddr (n.proc v.srcNr).mem p.saddr p.len.toNat }

theorem vcopyLocal_of_loop {cp : ℕ → ℤ} (limit : ℤ) (hl : 0 < limit) :
    ∀ (fuel k : ℕ) (n : Node) (v : VcopyCall) (ps : List Piece) (code : ℤ),
    n.conf.dMaxCopybuf = limit → v.bytes ≤ fuel →
    VcopyCall.loop limit (fun k _ => cp k) (fuel + 1) k v = some (ps, code) →
    (n.vcopyLocal v cp fuel k).2 = code ∧
      (code = EMol.ok →
        (n.vcopyLocal v cp fuel k).1 = ps.foldl (fun m p => m.copyPiece v p) n) := by
  intro fuel
  induction fuel with
  | zero =>
    intro k n v ps code _ hf h
    rw [VcopyCall.loop_of_le (by simpa using hf)] at h
    obtain ⟨rfl, rfl⟩ := Prod.mk.inj (Option.some.inj h)
    exact ⟨rfl, fun _ => rfl⟩
  | succ fuel ih =>
    intro k n v ps code hconf hf h
    by_cases hb : v.bytes ≤ 0
    · have hv : n.vcopyLocal v cp (fuel + 1) k = (n, EMol.ok) := if_pos hb
      rw [VcopyCall.loop_of_le hb] at h
      obtain ⟨rfl, rfl⟩ := Prod.mk.inj (Option.some.inj h)
      rw [hv]
      exact ⟨rfl, fun _ => rfl⟩
    have hb' : 0 < v.bytes := by omega
    by_cases ht : cp k = EMol.ok
    · have hv : n.vcopyLocal v cp (fuel + 1) k =
          (n.copyPiece v (v.piece limit)).vcopyLocal (v.advance (v.pieceLen limit)) cp fuel
            (k + 1) := by
        subst hconf
        exact (if_neg hb).trans (if_neg (not_not.2 ht))
      rw [VcopyCall.loop_of_ok hb' ht] at h
      obtain ⟨⟨ps', code'⟩, hrest, heq⟩ := Option.map_eq_some_iff.1 h
      obtain ⟨rfl, rfl⟩ := Prod.mk.inj heq
      have hpos := VcopyCall.pieceLen_pos hl hb'
      have hf' : (v.advance (v.pieceLen limit)).bytes ≤ fuel := by
        show v.bytes - v.pieceLen limit ≤ fuel
        omega
      rw [hv]
      exact ih (k + 1) (n.copyPiece v (v.piece limit)) _ ps' code' hconf hf' hrest
    · have hv : n.vcopyLocal v cp (fuel + 1) k = (n, cp k) := (if_neg hb).trans (if_pos ht)
      rw [VcopyCall.loop_of_fail hb' ht] at h
      obtain ⟨rfl, rfl⟩ := Prod.mk.inj (Option.some.inj h)
      rw [hv]
      exact ⟨rfl, fun h => absurd h ht⟩

/-- **`vcopyLocal` runs the loop of one node**: it returns its result, and if that is good it has
copied the chunks. -/
theorem vcopyLocal_loop (h : n.conf.Accepted) (hl : 0 < n.conf.dMaxCopybuf) (hb : 0 ≤ v.bytes)
    (cp : ℕ → ℤ) :
    ∃ ps, VcopyCall.loop n.conf.dMaxCopybuf (copyTurn cp) (v.bytes.toNat + 1) 0 v =
        some (ps, (n.vcopyLocal v cp v.bytes.toNat 0).2) ∧
      ((n.vcopyLocal v cp v.bytes.toNat 0).2 = EMol.ok →
        (n.vcopyLocal v cp v.bytes.toNat 0).1 = ps.foldl (fun m p => m.copyPiece v p) n) := by
  have hturn := h.loop_turn hl cp (v.bytes.toNat + 1) 0 v
  have hsome :
      (VcopyCall.loop n.conf.dMaxCopybuf (fun k _ => cp k) (v.bytes.toNat + 1) 0 v).isSome :=
    VcopyCall.loop_isSome hl _ _ _ (by omega)
  obtain ⟨⟨ps, code⟩, hloop⟩ := Option.isSome_iff_exists.1 hsome
  obtain ⟨hcode, hnode⟩ := vcopyLocal_of_loop _ hl _ 0 n v ps code rfl (by omega) hloop
  rw [hcode]
  exact ⟨ps, hturn.trans hloop, hnode⟩

end Node

/-- **The loop on one node** does what it should iff there is nothing to copy or the copy buffer is
not empty; with a negative one the first chunk is refused. -/
theorem VcopyCall.chunked_local_iff {limit : ℤ} {v : VcopyCall} (hb : 0 ≤ v.bytes) :
    (∀ res, VcopyCall.Chunked limit (copyTurn res) v) ↔ v.bytes = 0 ∨ limit ≠ 0 := by
  constructor
  · intro h
    by_contra hno
    obtain ⟨h0, hlim⟩ := not_or.1 hno
    obtain rfl : limit = 0 := not_not.1 hlim
    obtain ⟨fuel, hsome⟩ := (h fun _ => EMol.ok).ends
    have hturn (k : ℕ) : copyTurn (fun _ => EMol.ok) k 0 = EMol.ok := if_neg (by decide)
    rw [VcopyCall.loop_none (Int.le_refl 0) hturn fuel 0 v (by omega)] at hsome
    cases hsome
  · intro h res
    by_cases h0 : v.bytes = 0
    · exact VcopyCall.chunked_of_zero h0
    rcases Int.lt_or_gt_of_ne (h.resolve_left h0) with hneg | hpos
    · have hlen : v.pieceLen limit < 0 := Int.lt_of_le_of_lt (VcopyCall.pieceLen_le v) hneg
      refine VcopyCall.chunked_of_fail (by omega) ?_
      rw [copyTurn, if_pos (.inl hlen)]
      decide
    · exact VcopyCall.chunked_of_pos hpos hb

/-! ### The loops with another node -/

namespace Node

/-- The chunk in the header of a request. -/
def chunk (n : Node) (c : ℤ) : Piece :=
  let h := (n.proc c).rmtcmd.vcopy
  ⟨h.saddr, h.daddr, h.bytes⟩

/-- The loop of a copy with another node, for at most `fuel` sleeps: the chunks that went out and
the result. What others do during the `k`-th sleep and how it ends is `env k`. -/
def chunks (c : ℤ) : ℕ → (ℕ → Node → Node × ℤ) → Node × VcopyNext → Option (List Piece × ℤ)
  | _, _, (_, .ret code) => some ([], code)
  | 0, _, _ => none
  | fuel + 1, env, (n, next) =>
    let m := env 0 n
    (chunks c fuel (fun k => env (k + 1)) (m.1.vcopyWake c next m.2 fun _ => 0)).map fun r =>
      (n.chunk c :: r.1, r.2)

def placement (n : Node) (v : VcopyCall) : Placement :=
  Placement.of (n.proc v.srcNr) (n.proc v.dstNr)

/-- Others may do anything while the caller sleeps, except take it out of the copy, ask it to
migrate, or move the source or the destination to another node. -/
structure Leaves (c : ℤ) (v : VcopyCall) (n m : Node) : Prop where
  conf : m.conf = n.conf
  oncopy : (n.proc c).rts.oncopy = true → (m.proc c).rts.oncopy = true
  needmigr : (n.proc c).misc.needmigr = false → (m.proc c).misc.needmigr = false
  parties (q : ℤ) : q = v.srcNr ∨ q = v.dstNr →
    (m.proc q).rts.remote = (n.proc q).rts.remote ∧ (m.proc q).nodeid = (n.proc q).nodeid

/-- The caller is in the loop of a copy with another node. -/
structure InLoop (c : ℤ) (v : VcopyCall) (n : Node) : Prop where
  oncopy : (n.proc c).rts.oncopy = true
  needmigr : (n.proc c).misc.needmigr = false
  remote : n.placement v ≠ .lclLcl

/-- What `mm_vcopy` has checked before the loop: the sender proxy of a remote party is bound. -/
def ProxiesUp (v : VcopyCall) (n : Node) : Prop :=
  ∀ q, q = v.srcNr ∨ q = v.dstNr → (n.proc q).rts.remote = true →
    (n.sproxy (n.conf.nProxies (n.proc q).nodeid)).rts ≠ Rts.onlyFree

section Remote

variable {c len : ℤ} {m : Node} {env : ℕ → Node → Node × ℤ}

theorem Leaves.placement (h : Leaves c v n m) : m.placement v = n.placement v := by
  obtain ⟨hs, hs'⟩ := h.parties _ (.inl rfl)
  obtain ⟨hd, hd'⟩ := h.parties _ (.inr rfl)
  unfold Node.placement Placement.of
  rw [hs, hs', hd, hd']

theorem Leaves.trans {l : Node} (h : Leaves c v n m) (h' : Leaves c v m l) : Leaves c v n l where
  conf := h'.conf.trans h.conf
  oncopy := h'.oncopy ∘ h.oncopy
  needmigr := h'.needmigr ∘ h.needmigr
  parties q hq :=
    ⟨(h'.parties q hq).1.trans (h.parties q hq).1, (h'.parties q hq).2.trans (h.parties q hq).2⟩

theorem Leaves.sproxy (h : Leaves c v n m) (sps : ℤ → Proc) :
    Leaves c v n { m with sproxy := sps } := ⟨h.conf, h.oncopy, h.needmigr, h.parties⟩

theorem Leaves.inLoop (h : Leaves c v n m) (hn : InLoop c v n) : InLoop c v m :=
  ⟨h.oncopy hn.oncopy, h.needmigr hn.needmigr, h.placement ▸ hn.remote⟩

/-- A change of the caller's own descriptor that keeps the marks of the copy. -/
theorem leaves_modProc {f : Proc → Proc}
    (h : ∀ p, (f p).rts.oncopy = p.rts.oncopy ∧ (f p).misc = p.misc ∧
      (f p).rts.remote = p.rts.remote ∧ (f p).nodeid = p.nodeid) :
    Leaves c v n (n.modProc c f) where
  conf := rfl
  oncopy ho := by rw [modProc_same, (h _).1, ho]
  needmigr hm := by rw [modProc_same, (h _).2.1, hm]
  parties q _ := ⟨modProc_field c q (·.rts.remote) fun p => (h p).2.2.1,
    modProc_field c q Proc.nodeid fun p => (h p).2.2.2⟩

theorem InLoop.vcopyLen (h : InLoop c v n) :
    n.vcopyLen v = v.pieceLen (n.conf.limit (n.placement v)) := by
  have hr := h.remote
  unfold Node.placement at hr ⊢
  unfold Node.vcopyLen VcopyCall.pieceLen
  cases hs : (n.proc v.srcNr).rts.remote <;> cases hd : (n.proc v.dstNr).rts.remote <;>
    simp_all [Conf.limit, Placement.of]

theorem InLoop.dnode (h : InLoop c v n) (hup : ProxiesUp v n) (len : ℤ) :
    (n.sproxy (n.conf.nProxies (n.vcopyHdr c v len).dnode)).rts ≠ Rts.onlyFree := by
  have hs := hup v.srcNr (.inl rfl)
  have hd := hup v.dstNr (.inr rfl)
  have hr := h.remote
  unfold Node.placement Placement.of at hr
  unfold vcopyHdr
  dsimp only
  split_ifs <;> simp_all

theorem vcopyHdr_vcopy (n : Node) (c : ℤ) (v : VcopyCall) (len : ℤ) :
    let h := (n.vcopyHdr c v len).vcopy
    (⟨h.saddr, h.daddr, h.bytes⟩ : Piece) = ⟨v.saddr, v.daddr, len⟩ := by
  unfold vcopyHdr
  dsimp only
  split_ifs <;> rfl

/-- **A turn of the loop**: the proxy is gone, or the next chunk goes out and the caller sleeps. -/
theorem InLoop.issue (h : InLoop c v n) (hb : 0 < v.bytes) :
    let limit := n.conf.limit (n.placement v)
    ((n.vcopyIssue c v).2 = .ret EMol.noproxy ∧ ¬ ProxiesUp v n) ∨
      ∃ n', n.vcopyIssue c v = (n', .sleep v (v.pieceLen limit)) ∧ n'.chunk c = v.piece limit ∧
        Leaves c v n n' ∧ (n'.proc c).rcode = EMol.ok := by
  by_cases hfree :
      (n.sproxy (n.conf.nProxies (n.vcopyHdr c v (n.vcopyLen v)).dnode)).rts = Rts.onlyFree
  · refine .inl ⟨?_, fun hup => h.dnode hup _ hfree⟩
    have hb' : ¬ v.bytes ≤ 0 := by omega
    simp only [vcopyIssue, hb', if_false, sproxyEnqueue, modProc_same, modProc_conf,
      modProc_sproxy, hfree, if_true]
    rfl
  · have hsleep := vcopyIssue_of_up hb rfl hfree
    rw [h.vcopyLen] at hsleep
    refine .inr ⟨_, hsleep, ?_, ?_, ?_⟩
    · unfold chunk
      rw [modSproxy_proc, modProc_same]
      exact n.vcopyHdr_vcopy c v _
    · refine Leaves.sproxy (leaves_modProc ?_) _
      exact fun _ => ⟨rfl, rfl, rfl, rfl⟩
    · rw [modSproxy_proc, modProc_same]

theorem chunks_of_ret {x : Node × VcopyNext} {code : ℤ} (h : x.2 = .ret code) (fuel : ℕ) :
    chunks c fuel env x = some ([], code) := by
  obtain ⟨n, next⟩ := x
  obtain rfl : next = .ret code := h
  cases fuel <;> rfl

theorem vcopyFinish_ret (n : Node) (c : ℤ) (v : VcopyCall) {code : ℤ} (h : code ≠ EMol.ok) :
    (n.vcopyFinish c v code).2 = .ret code := congrArg VcopyNext.ret (if_neg h)

/-- **With a positive limit, and the caller one of the parties, the loop ends**, and if all its
turns succeed the chunks are the request. By induction on the sleeps: a turn that succeeds takes at
least one byte, one that fails ends the call. -/
theorem InLoop.chunks_partition {limit : ℤ} (hl : 0 < limit) :
    ∀ (fuel : ℕ) (n : Node) (v : VcopyCall) (env : ℕ → Node → Node × ℤ), InLoop c v n →
      v.srcNr = c ∨ v.dstNr = c → n.conf.limit (n.placement v) = limit → 0 ≤ v.bytes →
      v.bytes.toNat ≤ fuel → (∀ k m, Leaves c v m (env k m).1) →
      ∃ r, chunks c fuel env (n.vcopyIssue c v) = some r ∧
        (r.2 = EMol.ok → VcopyCall.Partition limit v r.1) := by
  intro fuel
  induction fuel with
  | zero =>
    intro n v env _ _ _ h0 hf _
    have hret : n.vcopyIssue c v = n.vcopyFinish c v EMol.ok := if_pos (by omega)
    exact ⟨_, chunks_of_ret (by rw [hret]; rfl) 0, fun _ => .nil (by omega)⟩
  | succ fuel ih =>
    intro n v env h hp hlim h0 hf henv
    by_cases hb : v.bytes ≤ 0
    · have hret : n.vcopyIssue c v = n.vcopyFinish c v EMol.ok := if_pos hb
      exact ⟨_, chunks_of_ret (by rw [hret]; rfl) _, fun _ => .nil (by omega)⟩
    have hb' : 0 < v.bytes := by omega
    rcases h.issue hb' with ⟨hret, -⟩ | ⟨n', hsleep, hchunk, hleaves, -⟩
    · exact ⟨_, chunks_of_ret hret _, fun hok => absurd hok (by decide)⟩
    rw [hlim] at hsleep hchunk
    have hm := hleaves.trans (henv 0 n')
    have hthird : ¬ (v.srcNr ≠ c ∧ v.dstNr ≠ c ∧ ((env 0 n').1.proc c).rts.oncopy = true) :=
      fun ⟨hs, hd, _⟩ => hp.elim hs hd
    rw [hsleep]
    simp only [chunks, hchunk, vcopyWake_eq (hm.needmigr h.needmigr) rfl]
    by_cases hcode : sleepCode ((env 0 n').1.proc c) (env 0 n').2 = EMol.ok
    · rw [if_neg (not_not_intro hcode)]
      have hroused := hm.trans (leaves_modProc (f := copyRoused
        (sleepCode ((env 0 n').1.proc c) (env 0 n').2)) fun _ => ⟨rfl, rfl, rfl, rfl⟩)
      have hin := hroused.inLoop h
      have hpos := VcopyCall.pieceLen_pos hl hb'
      have hle : v.pieceLen limit ≤ v.bytes := VcopyCall.pieceLen_le_bytes v
      obtain ⟨r, hr, hpart⟩ := ih _ (v.advance (v.pieceLen limit)) (fun k => env (k + 1))
        ⟨hin.oncopy, hin.needmigr, hin.remote⟩ hp
        ((congrArg₂ Conf.limit hroused.conf hroused.placement).trans hlim)
        (by show 0 ≤ v.bytes - v.pieceLen limit; omega)
        (by show (v.bytes - v.pieceLen limit).toNat ≤ fuel; omega)
        fun k m => ⟨(henv _ m).conf, (henv _ m).oncopy, (henv _ m).needmigr, (henv _ m).parties⟩
      rw [hr]
      exact ⟨_, rfl, fun hok => .cons hl hb' (hpart hok)⟩
    · rw [if_pos hcode, if_neg hthird, chunks_of_ret (vcopyFinish_ret _ c v hcode)]
      exact ⟨_, rfl, fun hok => absurd hok hcode⟩

/-- **Without a positive limit the loop does not end** as long as the proxy takes its requests and
the answers are good. -/
theorem InLoop.chunks_none : ∀ (fuel : ℕ) (n : Node) (v : VcopyCall), InLoop c v n →
    n.conf.limit (n.placement v) ≤ 0 → ProxiesUp v n → 0 < v.bytes →
    chunks c fuel (fun _ m => ({ m with sproxy := n.sproxy }, 1)) (n.vcopyIssue c v) = none := by
  intro fuel
  induction fuel with
  | zero =>
    intro n v h _ hup hb
    obtain ⟨n', hsleep, -⟩ := (h.issue hb).resolve_left fun hno => hno.2 hup
    rw [hsleep]
    rfl
  | succ fuel ih =>
    intro n v h hlim hup hb
    obtain ⟨n', hsleep, -, hleaves, hr⟩ := (h.issue hb).resolve_left fun hno => hno.2 hup
    have hlen : v.pieceLen (n.conf.limit (n.placement v)) = n.conf.limit (n.placement v) :=
      if_pos (by omega)
    have hm := hleaves.sproxy n.sproxy
    have hin := hm.inLoop h
    rw [hsleep, hlen]
    simp only [chunks]
    rw [vcopyWake_of_ok (n := { n' with sproxy := n.sproxy }) hr (hm.needmigr h.needmigr)
      Int.one_pos, Option.map_eq_none_iff]
    refine ih { n' with sproxy := n.sproxy } (v.advance _) ⟨hin.oncopy, hin.needmigr, hin.remote⟩
      ?_ ?_ ?_
    · exact Int.le_trans (Int.le_of_eq (congrArg₂ Conf.limit hm.conf hm.placement)) hlim
    · intro q hq hrem
      obtain ⟨hq1, hq2⟩ := hm.parties q hq
      have hq' := hup q hq (hq1 ▸ hrem)
      rw [hq2, hm.conf]
      exact hq'
    · show 0 < v.bytes - n.conf.limit (n.placement v)
      omega

/-- **A third process whose wait fails stays in it.** -/
theorem chunks_timeouts (hs : v.srcNr ≠ c) (hd : v.dstNr ≠ c) : ∀ (fuel : ℕ) (n : Node),
    (n.proc c).rts.oncopy = true → (n.proc c).misc.needmigr = false →
    chunks c fuel (fun _ m => (m, 0)) (n, .sleep v len) = none := by
  intro fuel
  induction fuel with
  | zero => exact fun _ _ _ => rfl
  | succ fuel ih =>
    intro n ho hm
    have hcode : sleepCode (n.proc c) 0 ≠ EMol.ok := by
      unfold sleepCode EMol.ok EMol.timedout
      split_ifs <;> omega
    simp only [chunks, vcopyWake_eq hm rfl]
    rw [if_pos hcode, if_pos ⟨hs, hd, ho⟩, ih _ (by rw [modProc_same]; exact ho)
      (by rw [modProc_same]; exact hm)]
    rfl

/-- **The loops with another node**, whatever others do meanwhile: they do what they should iff
there is nothing to copy, or the limit is positive and the caller is one of the parties. -/
theorem InLoop.remote_chunked_iff (h : InLoop c v n) (hup : ProxiesUp v n) (hb : 0 ≤ v.bytes) :
    (∀ env : ℕ → Node → Node × ℤ, (∀ k m, Leaves c v m (env k m).1) →
      ∃ fuel r, chunks c fuel env (n.vcopyIssue c v) = some r ∧
        (r.2 = EMol.ok → VcopyCall.Partition (n.conf.limit (n.placement v)) v r.1)) ↔
      v.bytes = 0 ∨ 0 < n.conf.limit (n.placement v) ∧ (v.srcNr = c ∨ v.dstNr = c) := by
  constructor
  · intro hall
    by_contra hno
    obtain ⟨h0, hcond⟩ := not_or.1 hno
    have hb' : 0 < v.bytes := by omega
    by_cases hl : 0 < n.conf.limit (n.placement v)
    · obtain ⟨hs, hd⟩ := not_or.1 (not_and.1 hcond hl)
      obtain ⟨n', hsleep, -, hm, -⟩ := (h.issue hb').resolve_left fun hno => hno.2 hup
      obtain ⟨fuel, r, hr, -⟩ := hall (fun _ m => (m, 0))
        fun _ m => ⟨rfl, id, id, fun _ _ => ⟨rfl, rfl⟩⟩
      rw [hsleep, chunks_timeouts hs hd fuel n' (hm.oncopy h.oncopy) (hm.needmigr h.needmigr)] at hr
      cases hr
    · obtain ⟨fuel, r, hr, -⟩ := hall (fun _ m => ({ m with sproxy := n.sproxy }, 1))
        fun _ m => ⟨rfl, id, id, fun _ _ => ⟨rfl, rfl⟩⟩
      rw [h.chunks_none fuel n v (by omega) hup hb'] at hr
      cases hr
  · rintro (h0 | ⟨hl, hp⟩) env henv
    · have hret : n.vcopyIssue c v = n.vcopyFinish c v EMol.ok := if_pos (by omega)
      exact ⟨0, _, chunks_of_ret (by rw [hret]; rfl) 0, fun _ => .nil h0⟩
    · exact ⟨_, h.chunks_partition hl _ n v env hp rfl hb (Nat.le_refl _) henv⟩

end Remote

/-- **The copy loop of an accepted request** does what it should, on one node, iff there is nothing
to copy or the copy buffer is not empty, and with another node, whatever others do meanwhile, iff
there is nothing to copy, or the limit is positive and the caller is one of the parties. -/
theorem chunked_iff (n : Node) (c : ℤ) {v : VcopyCall} (hb : 0 ≤ v.bytes) :
    (n.placement v = .lclLcl →
      ((∀ res, VcopyCall.Chunked (n.conf.limit (n.placement v)) (copyTurn res) v) ↔
        v.bytes = 0 ∨ n.conf.limit (n.placement v) ≠ 0)) ∧
    (InLoop c v n → ProxiesUp v n →
      ((∀ env : ℕ → Node → Node × ℤ, (∀ k m, Leaves c v m (env k m).1) →
        ∃ fuel r, chunks c fuel env (n.vcopyIssue c v) = some r ∧
          (r.2 = EMol.ok → VcopyCall.Partition (n.conf.limit (n.placement v)) v r.1)) ↔
        v.bytes = 0 ∨ 0 < n.conf.limit (n.placement v) ∧ (v.srcNr = c ∨ v.dstNr = c))) :=
  ⟨fun _ => VcopyCall.chunked_local_iff hb, fun h hup => h.remote_chunked_iff hup hb⟩

end Node

def Conf.withCopybuf (buf : ℤ) : Conf := { Conf.sample 0 with dMaxCopybuf := buf }

theorem Conf.withCopybuf_accepted {buf : ℤ} (h : buf ≤ 65536) : (withCopybuf buf).Accepted := by
  refine ⟨⟨⟨4, 32, 221, 35, 64, buf, 16 * 65536⟩, ?_, rfl, rfl, rfl, rfl⟩, fun p => .inr ?_⟩
  · simp [DvsUsr.check, maxCopyLen]
    omega
  · have hbind : ((Dvs.init 0 32 4).proxiesBind 1 0 0 65536 true).2 = EMol.ok := by decide
    exact ⟨_, _, _, _, _, hbind⟩

def oneByte : VcopyCall := ⟨4, 5, 0, 0, 1⟩

/-- Process 4 copies to 5, which is on this node or on node 1. -/
def copying (buf : ℤ) (remote : Bool) : Node where
  conf := Conf.withCopybuf buf
  proc i := Proc.sample (if remote && i == 5 then 1 else 0) i
    { oncopy := true, remote := remote && i == 5 }
  sproxy := Proc.sampleProxy
  rproxy := Proc.sampleProxy

theorem positive_limit_chunked :
    (Conf.withCopybuf 16).Accepted ∧ 0 ≤ oneByte.bytes ∧
      (copying 16 false).placement oneByte = .lclLcl ∧
      (∀ res, VcopyCall.Chunked ((copying 16 false).conf.limit .lclLcl) (copyTurn res) oneByte) ∧
      Node.InLoop 4 oneByte (copying 16 true) ∧ Node.ProxiesUp oneByte (copying 16 true) ∧
      ∀ env : ℕ → Node → Node × ℤ, (∀ k m, Node.Leaves 4 oneByte m (env k m).1) →
        ∃ fuel r, Node.chunks 4 fuel env ((copying 16 true).vcopyIssue 4 oneByte) = some r ∧
          (r.2 = EMol.ok → VcopyCall.Partition 65536 oneByte r.1) := by
  have hin : Node.InLoop 4 oneByte (copying 16 true) := ⟨rfl, rfl, by decide⟩
  have hup : Node.ProxiesUp oneByte (copying 16 true) :=
    fun _ _ _ => show ({} : Rts) ≠ Rts.onlyFree by decide
  have hb : 0 ≤ oneByte.bytes := by decide
  refine ⟨Conf.withCopybuf_accepted (by decide), hb, rfl, ?_, hin, hup, ?_⟩
  · exact ((Node.chunked_iff (copying 16 false) 4 hb).1 rfl).2 (.inr (by decide))
  · exact ((Node.chunked_iff (copying 16 true) 4 hb).2 hin hup).2 (.inr ⟨by decide, .inl rfl⟩)

/-- **A copy that never ends**: `mm_dvs_init` accepts a copy buffer of no bytes, and the loop goes
on for ever, with all its turns good. -/
theorem no_copybuf_endless :
    (Conf.withCopybuf 0).Accepted ∧ 0 ≤ oneByte.bytes ∧
      oneByte.bytes ≤ (Conf.withCopybuf 0).dMaxCopylen ∧
      ∀ fuel, VcopyCall.loop ((Conf.withCopybuf 0).limit .lclLcl)
        (copyTurn fun _ => EMol.ok) fuel 0 oneByte = none :=
  ⟨Conf.withCopybuf_accepted (by decide), by decide, by decide,
    fun fuel => VcopyCall.loop_none (by decide) (fun _ => rfl) fuel 0 oneByte (by decide)⟩

end MolIpc
