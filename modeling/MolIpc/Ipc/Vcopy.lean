import MolIpc.Proxy.Acks

/-!
`mm_vcopy`: a process copies a block of memory between two processes of its DC.

A copy that involves another node goes out in chunks; for each one the caller queues its own
descriptor on a sender proxy and sleeps. The call is cut where it sleeps: `vcopyStart` runs up to
the first sleep, `vcopyWake` from one sleep to the next. As everywhere, a call that locks one
descriptor twice never returns, and gives `none`.
-/

namespace MolIpc

structure VcopyCall where
  src : ℤ
  dst : ℤ
  saddr : ℕ
  daddr : ℕ
  bytes : ℤ
  deriving DecidableEq, Repr

namespace VcopyCall

/-- The copy after `len` more bytes. -/
def advance (v : VcopyCall) (len : ℤ) : VcopyCall :=
  { v with
    saddr := v.saddr + len.toNat, daddr := v.daddr + len.toNat, bytes := v.bytes - len }

def srcNr (v : VcopyCall) : ℤ := endpointP v.src

def dstNr (v : VcopyCall) : ℤ := endpointP v.dst

end VcopyCall

/-- `mm_vcopy` returns, sleeps until a chunk of `len` bytes is done, or until the process `nr` has
migrated. -/
inductive VcopyNext
  | ret (code : ℤ)
  | sleep (v : VcopyCall) (len : ℤ)
  | waitMigr (v : VcopyCall) (nr : ℤ)
  deriving DecidableEq, Repr

namespace Node

variable {n : Node} {c len w : ℤ} {v : VcopyCall} {cp : ℕ → ℤ}

/-! ### Checks -/

/-- What the checks of one party of the copy find. -/
inductive PartyCheck
  | ok
  | err (code : ℤ)
  | migrating
  deriving DecidableEq, Repr

/-- The checks of the source and the destination of a copy; `died` is `EMOLSRCDIED` or
`EMOLDSTDIED`. -/
def vcopyParty (n : Node) (c nr ep died : ℤ) : PartyCheck :=
  let p := n.proc nr
  if p.endpoint ≠ ep then .err EMol.endpoint
  else if p.rts.slotFree then .err died
  else if p.rts.oncopy then .err EMol.busy
  else if c ≠ nr ∧ p.rts.remote ∧ p.rts.rmtoper then .err EMol.busy
  else if c ≠ nr ∧ ¬ p.rts.remote ∧ ¬ p.rts.receiving then .err EMol.procsts
  else if ¬ (0 ≤ p.nodeid ∧ p.nodeid < n.conf.dNrNodes) then .err EMol.badnodeid
  else if ¬ n.conf.dcNodes p.nodeid then .err EMol.nodcnode
  else if nr ≠ c ∧ p.rts.migrate then .migrating
  else .ok

/-- The checks on the sender proxy of the node that takes part in the copy. -/
def vcopyProxy (n : Node) (node : ℤ) : ℤ :=
  let sp := n.sproxy (n.conf.nProxies node)
  if sp.lpid = procNoPid then EMol.noproxy
  else if sp.rts.slotFree then EMol.noproxy
  else if ¬ sp.misc.proxy then EMol.noproxy
  else if ¬ sp.misc.connected then EMol.notconn
  else EMol.ok

/-! ### Leaving the call -/

/-- The end of `mm_vcopy`: the three processes leave the copy, and those that only the copy kept
asleep are woken up. -/
def vcopyFinish (n : Node) (c : ℤ) (v : VcopyCall) (ret : ℤ) : Node × VcopyNext :=
  let code := if ret = EMol.ok then (n.proc c).rcode else ret
  let n :=
    if ret = EMol.ok then n
    else n.modProc c fun p =>
      { p with rts := { p.rts with rmtoper := false }, proxy := noneEp, rcode := ret }
  let n := ((n.clearOncopy v.srcNr).clearOncopy v.dstNr).clearOncopy c
  let n := if (n.proc c).rts.signaled then n.modProc c fun p => p.initDesc n.conf.dcid else n
  let n := if v.srcNr = c then n else n.modProc v.srcNr fun p => p.upIfReady code
  let n := if v.dstNr = c then n else n.modProc v.dstNr fun p => p.upIfReady code
  (n, .ret code)

/-! ### Chunks -/

/-- The size of the next chunk: what the proxies carry, or, between two remote nodes, the copy
buffer. -/
def vcopyLen (n : Node) (v : VcopyCall) : ℤ :=
  let s := n.proc v.srcNr
  let d := n.proc v.dstNr
  let max :=
    if ¬ s.rts.remote then n.conf.maxbytes d.nodeid
    else if ¬ d.rts.remote then n.conf.maxbytes s.nodeid
    else n.conf.dMaxCopybuf
  if max < v.bytes then max else v.bytes

/-- The header of a chunk of `len` bytes. -/
def vcopyHdr (n : Node) (c : ℤ) (v : VcopyCall) (len : ℤ) : Hdr :=
  let s := n.proc v.srcNr
  let d := n.proc v.dstNr
  let old := (n.proc c).rmtcmd
  let hdr := { old with
    dcid := n.conf.dcid, src := (n.proc c).endpoint, snode := n.conf.localNodeid
    rcode := EMol.ok
    vcopy := { src := s.endpoint, dst := d.endpoint, rqtr := (n.proc c).endpoint
               saddr := v.saddr, daddr := v.daddr, bytes := len } }
  if ¬ s.rts.remote then
    { hdr with cmd := .copyinData, dst := d.endpoint, dnode := d.nodeid, len := len }
  else if ¬ d.rts.remote then
    { hdr with cmd := .copyoutRqst, dst := s.endpoint, dnode := s.nodeid, len := 0 }
  else if s.nodeid = d.nodeid then
    { hdr with cmd := .copylclRqst, dst := d.endpoint, dnode := d.nodeid, len := 0 }
  else { hdr with cmd := .copyrmtRqst, dst := s.endpoint, dnode := s.nodeid, len := 0 }

/-- The loop `while (bytes > 0)` of a copy with another node, up to the sleep of its next turn. -/
def vcopyIssue (n : Node) (c : ℤ) (v : VcopyCall) : Node × VcopyNext :=
  if v.bytes ≤ 0 then n.vcopyFinish c v EMol.ok
  else
    let len := n.vcopyLen v
    let n := n.modProc c fun p =>
      { p with rts := { p.rts with rmtoper := true }, rmtcmd := n.vcopyHdr c v len }
    match n.sproxyEnqueue c with
    | (n, ret) =>
      if ret ≠ EMol.ok then n.vcopyFinish c v ret
      else
        (n.modProc c fun p => { p with pseudosem := -1, rcode := EMol.ok }, .sleep v len)

/-- The loop of a copy between two processes of this node; `cp k` is the result of the `k`-th
user copy. -/
def vcopyLocal (n : Node) (v : VcopyCall) (cp : ℕ → ℤ) : ℕ → ℕ → Node × ℤ
  | 0, _ => (n, EMol.ok)
  | fuel + 1, k =>
    if v.bytes ≤ 0 then (n, EMol.ok)
    else
      let len := if n.conf.dMaxCopybuf < v.bytes then n.conf.dMaxCopybuf else v.bytes
      if cp k ≠ 0 then (n, cp k)
      else
        let src := (n.proc v.srcNr).mem
        let n := n.modProc v.dstNr fun p =>
          { p with mem := p.mem.blit v.daddr src v.saddr len.toNat }
        vcopyLocal n (v.advance len) cp fuel (k + 1)

def vcopyEnter (n : Node) (c : ℤ) (v : VcopyCall) : Node :=
  (((n.setOncopy c).setOncopy v.srcNr).setOncopy v.dstNr).modProc c fun p =>
    { p with rcode := EMol.ok }

/-- The body of `mm_vcopy` once both parties are checked and marked. -/
def vcopyBody (n : Node) (c : ℤ) (v : VcopyCall) (cp : ℕ → ℤ) : Node × VcopyNext :=
  let s := n.proc v.srcNr
  let d := n.proc v.dstNr
  if ¬ s.rts.remote ∧ ¬ d.rts.remote then
    if d.tgid = s.tgid then
      (n.modProc c fun p => { p with rcode := EMol.perm }).vcopyFinish c v EMol.perm
    else
      match n.vcopyLocal v cp v.bytes.toNat 0 with
      | (n, ret) => (n.modProc c fun p => { p with rcode := ret }).vcopyFinish c v ret
  else
    let ret :=
      if ¬ s.rts.remote then n.vcopyProxy d.nodeid
      else if ¬ d.rts.remote then n.vcopyProxy s.nodeid
      else if n.vcopyProxy s.nodeid ≠ EMol.ok then n.vcopyProxy s.nodeid
      else n.vcopyProxy d.nodeid
    if ret ≠ EMol.ok then n.vcopyFinish c v ret else n.vcopyIssue c v

/-- The loop `do ... while(retry)` that checks both parties, up to a sleep for a migration. -/
def vcopyChecked (n : Node) (c : ℤ) (v : VcopyCall) (cp : ℕ → ℤ) : Node × VcopyNext :=
  let wait := fun nr ep =>
    let n := n.modProc c fun p =>
      { p with
        rts := { p.rts with waitmigr := true }, waitmigr := ep
        pseudosem := -1, rcode := EMol.ok }
    (n.modProc nr fun p => { p with mlist := p.mlist ++ [c] }, VcopyNext.waitMigr v nr)
  match n.vcopyParty c v.srcNr v.src EMol.srcdied with
  | .err code => (n, .ret code)
  | .migrating => wait v.srcNr v.src
  | .ok =>
    match n.vcopyParty c v.dstNr v.dst EMol.dstdied with
    | .err code => (n, .ret code)
    | .migrating => wait v.dstNr v.dst
    | .ok => (n.vcopyEnter c v).vcopyBody c v cp

theorem vcopyChecked_of_ok (hs : n.vcopyParty c v.srcNr v.src EMol.srcdied = .ok)
    (hd : n.vcopyParty c v.dstNr v.dst EMol.dstdied = .ok) :
    n.vcopyChecked c v cp = (n.vcopyEnter c v).vcopyBody c v cp := by
  simp only [vcopyChecked, hs, hd]

/-! ### The call -/

/-- `mm_vcopy` called by the process `c`, up to its first sleep. -/
def vcopyStart (n : Node) (c srcEp : ℤ) (saddr : ℕ) (dstEp : ℤ) (daddr : ℕ) (bytes : ℤ)
    (cp : ℕ → ℤ) : Option (Node × VcopyNext) :=
  if bytes < 0 ∨ n.conf.dMaxCopylen < bytes then some (n, .ret EMol.range)
  else
    let self := (n.proc c).endpoint
    let src := if srcEp = selfEp then self else srcEp
    let dst := if srcEp ≠ selfEp ∧ dstEp = selfEp then self else dstEp
    let v : VcopyCall := { src := src, dst := dst, saddr := saddr, daddr := daddr, bytes := bytes }
    if src = dst ∨ src = anyEp ∨ dst = anyEp ∨ src = noneEp ∨ dst = noneEp then
      some (n, .ret EMol.endpoint)
    else if ¬ (0 ≤ n.conf.dcid ∧ n.conf.dcid < n.conf.dNrDcs) then some (n, .ret EMol.baddcid)
    else if n.conf.dcFlags ≠ 0 then some (n, .ret EMol.dcnotrun)
    else if ¬ n.conf.inRange v.srcNr then some (n, .ret EMol.range)
    else if ¬ n.conf.inRange v.dstNr then some (n, .ret EMol.range)
    else if v.srcNr = v.dstNr then none
    else some (n.vcopyChecked c v cp)

/-- What `sleep_proc2` and `sleep_proc3` make of the result `w`: an error left in `p_rcode`, the
interruption, the timeout, or nothing. -/
def sleepCode (p : Proc) (w : ℤ) : ℤ :=
  if p.rcode < 0 then p.rcode
  else if w < 0 then w
  else if w = 0 then EMol.timedout
  else EMol.ok

/-- `mm_vcopy` after a sleep. With three processes locked a sleep that failed goes on as long as the
caller is in a copy. -/
def vcopyWake (n : Node) (c : ℤ) (next : VcopyNext) (w : ℤ) (cp : ℕ → ℤ) : Node × VcopyNext :=
  let code := sleepCode (n.proc c) w
  let woken := n.modProc c fun p =>
    { p with rcode := code, pseudosem := if code = EMol.ok then p.pseudosem else max p.pseudosem 0 }
  let up := woken.modProc c Proc.wakeMigr
  match next with
  | .ret code => (n, .ret code)
  | .waitMigr v nr =>
    if code ≠ EMol.ok ∧ v.srcNr ≠ c ∧ v.dstNr ≠ c ∧ (n.proc c).rts.oncopy then
      (woken, .waitMigr v nr)
    else up.vcopyChecked c v cp
  | .sleep v len =>
    if code ≠ EMol.ok then
      if v.srcNr ≠ c ∧ v.dstNr ≠ c ∧ (n.proc c).rts.oncopy then (woken, .sleep v len)
      else up.vcopyFinish c v code
    else up.vcopyIssue c (v.advance len)

/-- The descriptor of the caller of a copy after a wait that came to `code`. -/
def copyRoused (code : ℤ) (p : Proc) : Proc :=
  { p with rcode := code, pseudosem := if code = EMol.ok then p.pseudosem else max p.pseudosem 0 }

theorem vcopyWake_eq {code : ℤ} (hm : (n.proc c).misc.needmigr = false)
    (hcode : sleepCode (n.proc c) w = code) :
    n.vcopyWake c (.sleep v len) w cp =
      if code ≠ EMol.ok then
        if v.srcNr ≠ c ∧ v.dstNr ≠ c ∧ (n.proc c).rts.oncopy then
          (n.modProc c (copyRoused code), .sleep v len)
        else (n.modProc c (copyRoused code)).vcopyFinish c v code
      else (n.modProc c (copyRoused code)).vcopyIssue c (v.advance len) := by
  subst hcode
  have hup (code : ℤ) : (n.modProc c (copyRoused code)).modProc c Proc.wakeMigr =
      n.modProc c (copyRoused code) := by
    refine modProc_eq_self _ _ _ ?_
    simp [copyRoused, Proc.wakeMigr, hm]
  have heq : n.vcopyWake c (.sleep v len) w cp =
      if sleepCode (n.proc c) w ≠ EMol.ok then
        if v.srcNr ≠ c ∧ v.dstNr ≠ c ∧ (n.proc c).rts.oncopy then
          (n.modProc c (copyRoused (sleepCode (n.proc c) w)), .sleep v len)
        else ((n.modProc c (copyRoused (sleepCode (n.proc c) w))).modProc c
          Proc.wakeMigr).vcopyFinish c v (sleepCode (n.proc c) w)
      else ((n.modProc c (copyRoused (sleepCode (n.proc c) w))).modProc c
        Proc.wakeMigr).vcopyIssue c (v.advance len) := rfl
  rw [heq, hup]

theorem vcopyWake_of_ok (hr : (n.proc c).rcode = EMol.ok) (hm : (n.proc c).misc.needmigr = false)
    (hw : 0 < w) (cp : ℕ → ℤ) :
    n.vcopyWake c (.sleep v len) w cp = n.vcopyIssue c (v.advance len) := by
  have hcode : sleepCode (n.proc c) w = EMol.ok := by
    have h1 : ¬ w < 0 := by omega
    have h2 : w ≠ 0 := by omega
    simp [sleepCode, hr, h1, h2, EMol.ok]
  have hroused : n.modProc c (copyRoused EMol.ok) = n := by
    refine n.modProc_eq_self c _ ?_
    rw [copyRoused, if_pos rfl, ← hr]
  rw [vcopyWake_eq hm hcode, if_neg (not_not_intro rfl), hroused]

theorem vcopyIssue_of_up {px : ℤ} (hb : 0 < v.bytes)
    (hpx : n.conf.nProxies (n.vcopyHdr c v (n.vcopyLen v)).dnode = px)
    (hfree : (n.sproxy px).rts ≠ Rts.onlyFree) :
    n.vcopyIssue c v =
      (((n.modProc c fun p =>
          { p with
            rts := { p.rts with rmtoper := true }
            rmtcmd := n.vcopyHdr c v (n.vcopyLen v)
            proxy := px, pseudosem := -1, rcode := EMol.ok }).modSproxy px fun sp =>
        sp.enqueueCaller c), .sleep v (n.vcopyLen v)) := by
  have hb' : ¬ v.bytes ≤ 0 := by omega
  simp only [vcopyIssue, hb', if_false, sproxyEnqueue, modProc_same, modProc_conf, modProc_sproxy,
    hpx, hfree, ne_eq, not_true]
  simp [modProc, modSproxy]

end Node

end MolIpc
