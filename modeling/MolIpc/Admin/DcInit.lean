import MolIpc.Admin.Tables
import Mathlib.Algebra.Order.Ring.Int

/-!
What `mm_dc_init` leaves when it fails.

The checks of the ranges end with a `break` that leaves the result alone, so that no configuration
is refused. The DC is published, with its flags and the bit of the local node, before anything is
allocated for it, and no exit takes that back but the last one. Its process table is a block of
memory that is known by the number of its allocation.
-/

namespace MolIpc

/-- `PAGE_SIZE`. -/
def pageSize : ℤ := 4096

/-- `NR_FIXED_TASKS`. -/
def nrFixedTasks : ℤ := 3

/-- The sizes of the tables of a DC, or the limits of the DVS for them. -/
structure DcSizes where
  procs : ℤ
  tasks : ℤ
  sysprocs : ℤ
  deriving DecidableEq, Repr

/-- `dc_usr_t`, as the caller supplies it. -/
structure DcUsr where
  dcid : ℤ
  size : DcSizes
  nrNodes : ℤ
  name : String

/-- What `mm_dc_init` may lack: one of its tables, the directory in debugfs, or an entry in `/proc`,
with the code for it. -/
inductive InitFail
  | proctab
  | sid2proc
  | debugfs
  | entry (code : ℤ)

/-- The tables of the DVS with its limits, the sizes and the process table of each DC (`none` is
`NULL`) and the number of the next allocation. -/
structure DcHost where
  dvs : Dvs
  limit : DcSizes
  size : ℤ → DcSizes
  proc : ℤ → Option ℕ
  next : ℕ
  sizeProc : ℤ
  maxOrder : ℕ
  fresh : ∀ d b, proc d = some b → b < next

namespace DcHost

variable (h : DcHost)

/-- The ranges that `mm_dc_init` looks at. -/
def InRange (u : DcUsr) : Prop :=
  h.dvs.DcRange u.dcid ∧ (0 < u.size.procs ∧ u.size.procs ≤ h.limit.procs) ∧
    (0 ≤ u.size.tasks ∧ u.size.tasks ≤ h.limit.tasks) ∧
    (0 ≤ u.size.sysprocs ∧ u.size.sysprocs ≤ h.limit.sysprocs) ∧
    (0 < u.nrNodes ∧ u.nrNodes ≤ h.dvs.nrNodes) ∧
    u.nrNodes * 2 + nrFixedTasks ≤ u.size.tasks ∧
    u.size.sysprocs < u.size.procs + u.size.tasks ∧ u.size.tasks < u.size.sysprocs

instance (u : DcUsr) : Decidable (h.InRange u) := by unfold InRange; infer_instance

/-- `proctab_size`. -/
def proctabSize (u : DcUsr) : ℤ := (h.sizeProc * (u.size.tasks + u.size.procs)).bmod (2 ^ 32)

def publish (u : DcUsr) : DcHost :=
  { h with
    dvs := h.dvs.dcStart u.dcid u.nrNodes u.name
    size := Function.update h.size u.dcid u.size }

/-- `dc_proc = NULL`. -/
def noProctab (d : ℤ) : DcHost :=
  { h with
    proc := Function.update h.proc d none
    fresh := fun i b hb => by
      rw [Function.update_apply] at hb
      split at hb
      · cases hb
      · exact h.fresh i b hb }

/-- `dc_proc = kmalloc(..)`. -/
def allocProctab (d : ℤ) : DcHost :=
  { h with
    proc := Function.update h.proc d (some h.next)
    next := h.next + 1
    fresh := fun i b hb => by
      rw [Function.update_apply] at hb
      split at hb
      · cases hb
        exact Nat.lt_succ_self _
      · exact (h.fresh i b hb).trans (Nat.lt_succ_self _) }

/-- `mm_dc_init`; no result for a DC that `mm_dvs_init` has not set up, or for a table of a negative
size. What is freed on an error is still pointed to. -/
def dcInit (u : DcUsr) (fail : Option InitFail) : Option (DcHost × Except ℤ ℤ) :=
  if maxDcName ≤ u.name.length then some (h, .error EMol.namesize)
  else if h.dvs.dcTaken u.dcid u.name then some (h, .error EMol.rscbusy)
  else if ¬ h.dvs.DcRange u.dcid then none
  else if h.proctabSize u < 0 then none
  else if pageSize * 2 ^ (h.maxOrder - 1) < h.proctabSize u then
    some (h.publish u, .error EMol.allocmem)
  else
    let t := (h.publish u).allocProctab u.dcid
    match fail with
    | none => some (t, .ok h.dvs.localNodeid)
    | some .proctab => some ((h.publish u).noProctab u.dcid, .error EMol.allocmem)
    | some .sid2proc => some (t, .error EMol.allocmem)
    | some .debugfs => some (t, .error EMol.baddir)
    | some (.entry code) => some ({ t with dvs := t.dvs.dcRelease u.dcid }, .error code)

def Fits (u : DcUsr) : Prop :=
  0 ≤ h.proctabSize u ∧ h.proctabSize u ≤ pageSize * 2 ^ (h.maxOrder - 1)

structure Good (u : DcUsr) : Prop where
  range : h.InRange u
  fits : h.Fits u
  name : u.name.length < maxDcName
  free : ¬ h.dvs.dcTaken u.dcid u.name

structure Unchanged (h h' : DcHost) : Prop where
  dvs : h'.dvs = h.dvs
  size : h'.size = h.size
  proc : h'.proc = h.proc

/-- The call succeeds for a DC that did not run with parameters in range, or fails and changes
nothing. -/
def AllOrNothing (u : DcUsr) (fail : Option InitFail) : Prop :=
  (∃ h' r, h.dcInit u fail = some (h', .ok r) ∧ h.InRange u ∧ (h.dvs.dc u.dcid).free = true) ∨
    ∃ h' code, h.dcInit u fail = some (h', .error code) ∧ Unchanged h h' ∧
      ∀ v, v.dcid = u.dcid → h.Good v → ∃ h'' r, h'.dcInit v none = some (h'', .ok r)

variable {h} {u : DcUsr}

theorem free_of_not_taken (hd : h.dvs.DcRange u.dcid) (ht : ¬ h.dvs.dcTaken u.dcid u.name) :
    (h.dvs.dc u.dcid).free = true := by
  by_contra hf
  obtain ⟨k, hk⟩ := Int.eq_ofNat_of_zero_le hd.1
  refine ht ⟨k, List.mem_range.mpr ?_, ?_, .inr hk.symm⟩
  · have := hd.2
    omega
  · rw [← hk]
    exact eq_false_of_ne_true hf

theorem publish_free : ((h.publish u).dvs.dc u.dcid).free = false := by
  simp [publish, Dvs.dcStart, Dvs.modDc_dc]

theorem Good.dcInit_eq (hg : h.Good u) :
    h.dcInit u none = some ((h.publish u).allocProctab u.dcid, .ok h.dvs.localNodeid) := by
  rw [dcInit, if_neg hg.name.not_ge, if_neg hg.free, if_neg (not_not_intro hg.range.1),
    if_neg hg.fits.1.not_gt, if_neg hg.fits.2.not_gt]

section Published

variable {h' : DcHost} {fail : Option InitFail} (hname : ¬ maxDcName ≤ u.name.length)
  (htaken : ¬ h.dvs.dcTaken u.dcid u.name)

include hname htaken

theorem dcInit_ok {r : ℤ} (hr : h.dcInit u fail = some (h', .ok r)) :
    h.Fits u ∧ fail = none := by
  rw [dcInit, if_neg hname, if_neg htaken] at hr
  split_ifs at hr with _ hneg hbig
  · cases hr
  rcases fail with _ | (_ | _ | _ | _) <;> cases hr
  exact ⟨⟨not_lt.mp hneg, not_lt.mp hbig⟩, rfl⟩

theorem not_unchanged_of_error {code : ℤ} (hr : h.dcInit u fail = some (h', .error code)) :
    ¬ Unchanged h h' := by
  rw [dcInit, if_neg hname, if_neg htaken] at hr
  split at hr
  · cases hr
  rename_i hd
  have hran : ∀ {t : DcHost}, t.dvs = (h.publish u).dvs → ¬ Unchanged h t := fun ht hu => by
    have hfree := free_of_not_taken (not_not.mp hd) htaken
    simp [← hu.dvs, ht, publish_free] at hfree
  split_ifs at hr
  · cases hr
    exact hran rfl
  rcases fail with _ | (_ | _ | _ | _) <;> cases hr
  · exact hran rfl
  · exact hran rfl
  · exact hran rfl
  · intro hu
    have hproc : h.proc u.dcid = some h.next := by
      rw [← hu.proc]
      exact Function.update_self ..
    exact (h.fresh _ _ hproc).false

end Published

/-- **A DC is initialised wholly or not at all iff** the call is refused at once, or the
configuration is good and nothing fails. -/
theorem allOrNothing_iff (h : DcHost) (u : DcUsr) (fail : Option InitFail) :
    h.AllOrNothing u fail ↔ maxDcName ≤ u.name.length ∨ h.dvs.dcTaken u.dcid u.name ∨
      h.InRange u ∧ h.Fits u ∧ fail = none := by
  have hsame : ∀ code, h.dcInit u fail = some (h, .error code) → h.AllOrNothing u fail :=
    fun code hc => .inr ⟨h, code, hc, ⟨rfl, rfl, rfl⟩, fun v _ hv => ⟨_, _, hv.dcInit_eq⟩⟩
  by_cases hname : maxDcName ≤ u.name.length
  · exact iff_of_true (hsame _ (if_pos hname)) (.inl hname)
  by_cases htaken : h.dvs.dcTaken u.dcid u.name
  · exact iff_of_true (hsame _ ((if_neg hname).trans (if_pos htaken))) (.inr (.inl htaken))
  constructor
  · rintro (⟨h', r, hr, hrange, -⟩ | ⟨h', code, hr, hu, -⟩)
    · exact .inr (.inr ⟨hrange, dcInit_ok hname htaken hr⟩)
    · exact absurd hu (not_unchanged_of_error hname htaken hr)
  · rintro (hn | ht | ⟨hr, hf, rfl⟩)
    · exact absurd hn hname
    · exact absurd ht htaken
    · have hg : h.Good u := ⟨hr, hf, not_le.mp hname, htaken⟩
      exact .inl ⟨_, _, hg.dcInit_eq, hr, free_of_not_taken hr.1 htaken⟩

def blank : DcHost where
  dvs := .init 0 2 4
  limit := ⟨221, 35, 64⟩
  size _ := ⟨0, 0, 0⟩
  proc _ := none
  next := 0
  sizeProc := 1024
  maxOrder := 11
  fresh _ _ h := nomatch h

def small (procs : ℤ) : DcUsr := ⟨0, ⟨procs, 8, 10⟩, 2, "DC0"⟩

/-- A DC without a slot for a user process is taken, and a DC that gets no memory for its process
table runs, so that nobody can try again. -/
theorem dcInit_neither :
    ¬ blank.AllOrNothing (small 0) none ∧ ¬ blank.AllOrNothing (small 8) (some .proctab) ∧
      ∃ h' h'', blank.dcInit (small 8) (some .proctab) = some (h', .error EMol.allocmem) ∧
        h'.dcInit (small 8) none = some (h'', .error EMol.rscbusy) := by
  have htaken : ¬ blank.dvs.dcTaken 0 "DC0" := by decide
  have hname : ¬ maxDcName ≤ "DC0".length := by decide
  refine ⟨?_, ?_, _, _, rfl, rfl⟩
  · rintro (⟨h', r, hr, hrange, -⟩ | ⟨h', code, hr, hu, -⟩)
    · exact absurd hrange (by decide)
    · exact not_unchanged_of_error hname htaken hr hu
  · rintro (⟨h', r, hr, -, -⟩ | ⟨h', code, hr, hu, -⟩)
    · exact nomatch (dcInit_ok hname htaken hr).2
    · exact not_unchanged_of_error hname htaken hr hu

end DcHost

end MolIpc
