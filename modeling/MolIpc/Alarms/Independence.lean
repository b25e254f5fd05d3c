import MolIpc.Alarms.Timers

/-!
The queue of timers holds the alarms that were asked for, as long as no entry of `priv` is copied
from the kernel over a timer that is running and followed by another one, and every process that
ends with an alarm has its timer reset.
-/

namespace MolIpc

namespace Alarms

open Linked Reach

variable {nr : ℕ}

namespace Clock

variable {c : Clock nr} {p : Fin nr} {l : List (Fin nr)}

/-! ### The invariant -/

/-- The timers of `l` are in the queue in the order of their expiration, and are those of the alarms
asked for. -/
structure Right (c : Clock nr) (l : List (Fin nr)) : Prop where
  holds : c.queue.Holds l
  sorted : l.Pairwise fun i j => (c.timer i).expTime ≤ (c.timer j).expTime
  mem : ∀ i, i ∈ l ↔ (c.asked i).isSome
  timer : ∀ i a, c.asked i = some a → c.timer i = ⟨a.expTime, true, a.endpoint⟩
  next : c.nextTimeout = c.headTime

/-- The same without what concerns the timer of `p`, apart from its place. -/
structure RightBut (c : Clock nr) (p : Fin nr) (l : List (Fin nr)) : Prop where
  holds : c.queue.Holds l
  sorted : (l.erase p).Pairwise fun i j => (c.timer i).expTime ≤ (c.timer j).expTime
  mem : ∀ i, i ≠ p → (i ∈ l ↔ (c.asked i).isSome)
  timer : ∀ i, i ≠ p → ∀ a, c.asked i = some a → c.timer i = ⟨a.expTime, true, a.endpoint⟩

def queued (c : Clock nr) (p : Fin nr) : Prop := ∃ l, c.queue.Holds l ∧ p ∈ l

theorem Right.queued_iff (h : c.Right l) : c.queued p ↔ (c.asked p).isSome := by
  rw [← h.mem]
  constructor
  · rintro ⟨l', hl', hp⟩
    rwa [Seg.unique h.holds hl']
  · exact fun hp => ⟨l, h.holds, hp⟩

theorem length_le {q : Links (Fin nr)} (h : q.Holds l) : l.length < nr + 1 := by
  have := (Seg.nodup h).length_le_card
  rw [Fintype.card_fin] at this
  omega

theorem pairwise_setFields {t : Timer} (hp : p ∉ l)
    (hl : l.Pairwise fun i j => (c.timer i).expTime ≤ (c.timer j).expTime) :
    l.Pairwise fun i j =>
      ((c.setFields p t).timer i).expTime ≤ ((c.setFields p t).timer j).expTime := by
  have hne : ∀ i ∈ l, (c.setFields p t).timer i = c.timer i := fun i hi =>
    Function.update_of_ne (fun h : i = p => hp (h ▸ hi)) _ _
  refine hl.imp_of_mem fun {i j} hi hj h => ?_
  rw [hne i hi, hne j hj]
  exact h

theorem RightBut.not_mem (h : c.RightBut p l) : p ∉ l.erase p :=
  fun hp => (List.Nodup.mem_erase_iff (Seg.nodup h.holds)).mp hp |>.1 rfl

/-! ### Setting and resetting a timer -/

theorem RightBut.tmrsClrtimer (h : c.RightBut p l) :
    ∃ q, q.Holds (l.erase p) ∧ c.tmrsClrtimer p =
      some { c.setFields p { c.timer p with expTime := tmrNever } with queue := q } := by
  have hl : c.queue.Holds ([] ++ l) := h.holds
  obtain ⟨q, hq, hl⟩ := hl.unlink (length_le h.holds) (List.not_mem_nil (a := p))
  rw [Ref.behind_nil] at hq
  exact ⟨q, hl, by rw [Clock.tmrsClrtimer, hq, Option.map_some]⟩

theorem RightBut.resetTimer (h : c.RightBut p l) (hp : c.asked p = none) :
    ∃ c', c.resetTimer p = some c' ∧ c'.Right (l.erase p) ∧ c'.asked = c.asked ∧
      c'.notified = c.notified := by
  obtain ⟨q, hl, hq⟩ := h.tmrsClrtimer
  rw [Clock.resetTimer, hq, Option.map_some]
  refine ⟨_, rfl, ?_, rfl, rfl⟩
  refine ⟨hl, pairwise_setFields h.not_mem h.sorted, fun i => ?_, fun i a ha => ?_, rfl⟩
  · rw [List.Nodup.mem_erase_iff (Seg.nodup h.holds)]
    by_cases hi : i = p
    · subst hi
      simp [setFields, hp]
    · simp [hi, h.mem i hi, setFields]
  · have hi : i ≠ p := by
      rintro rfl
      cases hp.symm.trans ha
    exact (Function.update_of_ne hi _ _).trans (h.timer i hi a ha)

theorem RightBut.setTimer {t : ℕ} {e : ℤ} (h : c.RightBut p l) (hp : c.asked p = some ⟨t, e⟩)
    (hf : (c.timer p).causesAlarm = true) (he : (c.timer p).arg = e) :
    ∃ c' l', c.setTimer p t = some c' ∧ c'.Right l' ∧ c'.asked = c.asked ∧
      c'.notified = c.notified := by
  obtain ⟨q, hl, hq⟩ := h.tmrsClrtimer
  generalize hd : ({ c.setFields p { c.timer p with expTime := tmrNever } with queue := q } :
    Clock nr) = d at hq
  have hdt : ∀ i, i ≠ p → d.timer i = c.timer i := fun i hi => by
    rw [← hd]
    exact Function.update_of_ne hi _ _
  have hdp : d.timer p = ⟨tmrNever, true, e⟩ := by
    rw [← hd, ← he, ← hf]
    exact Function.update_self _ _ _
  have hda : d.asked = c.asked := by rw [← hd]; rfl
  have hdn : d.notified = c.notified := by rw [← hd]; rfl
  have hl' : d.queue.Holds ([] ++ l.erase p) := by rw [← hd]; exact hl
  obtain ⟨q', hq', hl''⟩ := hl'.link (r := fun _ i => t < (d.timer i).expTime)
    (length_le hl) h.not_mem
  rw [Ref.behind_nil] at hq'
  rw [List.nil_append] at hl''
  generalize hins : (l.erase p).orderedInsert (fun _ i => t < (d.timer i).expTime) p = l' at hl''
  have hmem : ∀ i, i ∈ l' ↔ i = p ∨ i ∈ l.erase p := fun i => by
    rw [← hins]
    exact List.mem_orderedInsert _
  obtain ⟨i, hi⟩ : ∃ i, q'.head = some i := by
    cases l' with
    | nil => exact absurd ((hmem p).mpr (.inl rfl)) List.not_mem_nil
    | cons j l' => exact ⟨j, hl''.1⟩
  refine ⟨{ d.setFields p ⟨t, true, e⟩ with
    queue := q'
    nextTimeout := ((d.setFields p ⟨t, true, e⟩).timer i).expTime }, l', ?_, ?_, hda, hdn⟩
  · rw [Clock.setTimer, Clock.tmrsSettimer, hq, Option.bind_some, hq', Option.map_some,
      Option.bind_some, hdp]
    simp only [hi, Option.map_some]
  · have hnt : ∀ j, j ≠ p → (d.setFields p ⟨t, true, e⟩).timer j = c.timer j := fun j hj =>
      (Function.update_of_ne hj _ _).trans (hdt j hj)
    have hnp : (d.setFields p ⟨t, true, e⟩).timer p = ⟨t, true, e⟩ := Function.update_self _ _ _
    have hne : ∀ j ∈ l.erase p, j ≠ p := fun j hj hjp => h.not_mem (hjp ▸ hj)
    refine ⟨hl'', ?_, fun j => ?_, fun j a ha => ?_, ?_⟩
    · rw [← hins]
      refine pairwise_orderedInsert_key (fun j => ((d.setFields p ⟨t, true, e⟩).timer j).expTime)
        (fun j hj => ?_) (h.sorted.imp_of_mem fun {j k} hj hk hjk => ?_)
      · rw [hnp, hnt j (hne j hj), hdt j (hne j hj)]
      · rw [hnt j (hne j hj), hnt k (hne k hk)]
        exact hjk
    · rw [hmem]
      show _ ↔ (d.asked j).isSome = true
      by_cases hj : j = p
      · simp [hj, hda, hp]
      · rw [List.Nodup.mem_erase_iff (Seg.nodup h.holds), h.mem j hj, hda]
        simp [hj]
    · by_cases hj : j = p
      · subst hj
        obtain rfl : ⟨t, e⟩ = a := Option.some.inj (hp.symm.trans ((congrFun hda j).symm.trans ha))
        exact hnp
      · exact (hnt j hj).trans (h.timer j hj a ((congrFun hda j).symm.trans ha))
    · simp only [headTime, hi]

/-! ### The calls -/

section

variable (h : c.Right l)

include h

theorem Right.but {d : Clock nr} (hq : d.queue.Holds l) (ht : ∀ i, i ≠ p → d.timer i = c.timer i)
    (ha : ∀ i, i ≠ p → d.asked i = c.asked i) :
    d.RightBut p l where
  holds := hq
  sorted := by
    have hne : ∀ i ∈ l.erase p, i ≠ p := fun i hi =>
      ((List.Nodup.mem_erase_iff (Seg.nodup h.holds)).mp hi).1
    refine (h.sorted.sublist List.erase_sublist).imp_of_mem fun {i j} hi hj hij => ?_
    rw [ht i (hne i hi), ht j (hne j hj)]
    exact hij
  mem i hi := by rw [ha i hi, h.mem]
  timer i hi a hia := by
    rw [ha i hi] at hia
    rw [ht i hi, h.timer i a hia]

theorem Right.getpriv_holds (hn : c.queued p → c.kernNext p = c.queue.next p) :
    (c.getpriv p).queue.Holds l := by
  refine Seg.congr h.holds fun i hi => ?_
  show Function.update c.queue.next p (c.kernNext p) i = c.queue.next i
  by_cases hip : i = p
  · subst hip
    rw [Function.update_self, hn ⟨l, h.holds, hi⟩]
  · exact Function.update_of_ne hip _ _

theorem Right.doSetalarm {whoE expTime : ℤ} {absTime : Bool} {now : ℕ}
    (hn : c.queued p → c.kernNext p = c.queue.next p) :
    ∃ c' l', c.doSetalarm p whoE expTime absTime now = some c' ∧ c'.Right l' ∧
      c'.asked = Function.update c.asked p
        (if expTime = 0 then none else some ⟨alarmTime expTime absTime now, whoE⟩) ∧
      c'.notified = c.notified := by
  have hbut : ∀ a, ((c.getpriv p).setFields p
      ⟨((c.getpriv p).timer p).expTime, true, whoE⟩ |>.ask p a).RightBut p l := fun a =>
    h.but (h.getpriv_holds hn)
      (fun i hi => (Function.update_of_ne hi _ _).trans (Function.update_of_ne hi _ _))
      fun i hi => Function.update_of_ne hi _ _
  simp only [Clock.doSetalarm]
  by_cases he : expTime = 0
  · rw [if_pos he, if_pos he]
    obtain ⟨c', hc', hr, ha, hnot⟩ := (hbut none).resetTimer (Function.update_self _ _ _)
    exact ⟨c', _, hc', hr, ha, hnot⟩
  · rw [if_neg he, if_neg he]
    exact (hbut _).setTimer (Function.update_self _ _ _) (by simp [ask, setFields])
      (by simp [ask, setFields])

theorem Right.endProc {remote : Bool} (hr : c.queued p → remote = false) :
    ∃ c' l', c.endProc p remote = some c' ∧ c'.Right l' ∧
      c'.asked = Function.update c.asked p none ∧ c'.notified = c.notified := by
  cases remote with
  | false =>
    have hbut : (c.ask p none).RightBut p l :=
      h.but h.holds (fun _ _ => rfl) fun i hi => Function.update_of_ne hi _ _
    obtain ⟨c', hc', hr, ha, hnot⟩ := hbut.resetTimer (Function.update_self _ _ _)
    exact ⟨c', _, hc', hr, ha, hnot⟩
  | true =>
    -- no alarm of the process is there
    have hnone : c.asked p = none := by
      have : ¬ c.queued p := fun hq => absurd (hr hq) (by simp)
      rw [h.queued_iff] at this
      simpa using this
    have hsame : Function.update c.asked p none = c.asked := by
      rw [← hnone, Function.update_eq_self]
    refine ⟨_, l, rfl, ⟨h.holds, h.sorted, ?_, ?_, h.next⟩, rfl, rfl⟩
    · simpa only [ask, hsame] using h.mem
    · simpa only [ask, hsame] using h.timer

theorem Right.congr {d : Clock nr} (hq : d.queue.Holds l) (ht : ∀ i ∈ l, d.timer i = c.timer i)
    (ha : d.asked = c.asked) (hn : d.nextTimeout = c.nextTimeout) : d.Right l where
  holds := hq
  sorted := h.sorted.imp_of_mem fun {i j} hi hj hij => by rw [ht i hi, ht j hj]; exact hij
  mem i := by rw [ha, h.mem]
  timer i a hia := by
    rw [ha] at hia
    rw [ht i ((h.mem i).mpr (by simp [hia])), h.timer i a hia]
  next := by
    rw [hn, h.next]
    cases l with
    | nil =>
      rw [headTime, headTime, show d.queue.head = none from hq,
        show c.queue.head = none from h.holds]
    | cons j l =>
      rw [headTime, headTime, show d.queue.head = some j from hq.1,
        show c.queue.head = some j from h.holds.1]
      dsimp only
      rw [ht j (by simp)]

theorem Right.getpriv
    (hp : c.queued p → c.kernNext p = c.queue.next p ∧ c.kernTimer p = c.timer p) :
    (c.getpriv p).Right l := by
  refine h.congr (h.getpriv_holds fun hq => (hp hq).1) (fun i hi => ?_) rfl rfl
  by_cases hip : i = p
  · subst hip
    exact (Function.update_self _ _ _).trans (hp ⟨l, h.holds, hi⟩).2
  · exact Function.update_of_ne hip _ _

theorem Right.doPrivctl {allowed : Bool}
    (hp : c.queued p → c.kernNext p = c.queue.next p ∧ c.kernTimer p = c.timer p) :
    (c.doPrivctl p allowed).Right l := by
  have h1 := h.getpriv hp
  cases allowed with
  | false => exact h1
  | true =>
    have h2 : ((c.getpriv p).setpriv p).Right l := h1.congr h1.holds (fun _ _ => rfl) rfl rfl
    exact h2.getpriv fun _ => ⟨Function.update_self _ _ _, Function.update_self _ _ _⟩

theorem Right.fork (hp : ¬ c.queued p) (got : Bool) :
    (if got then (c.ask p none).getpriv p else c.ask p none).Right l ∧
      (if got then (c.ask p none).getpriv p else c.ask p none).asked = c.asked := by
  have hnone : c.asked p = none := by
    rw [h.queued_iff] at hp
    simpa using hp
  have hsame : Function.update c.asked p none = c.asked := by rw [← hnone, Function.update_eq_self]
  have h1 : (c.ask p none).Right l := h.congr h.holds (fun _ _ => rfl) hsame rfl
  cases got with
  | false => exact ⟨h1, hsame⟩
  | true => exact ⟨h1.getpriv fun hq => absurd hq hp, hsame⟩

end

/-! ### The handler -/

theorem tmrsExptimers_spec (now : ℕ) {t : Fin nr → Timer} : ∀ {l : List (Fin nr)} {c : Clock nr}
    {fuel : ℕ}, c.queue.Holds l → (∀ i ∈ l, c.timer i = t i) → (∀ i ∈ l, (t i).causesAlarm = true) →
    l.length < fuel →
    ∃ c', tmrsExptimers now fuel c = some c' ∧
      c'.queue.Holds (l.dropWhile fun i => decide ((t i).expTime ≤ now)) ∧
      c'.notified = c.notified ++
        (l.takeWhile fun i => decide ((t i).expTime ≤ now)).map (fun i => (t i).arg) ∧
      (∀ i ∉ l.takeWhile (fun i => decide ((t i).expTime ≤ now)), c'.timer i = c.timer i) ∧
      c'.asked = c.asked := by
  intro l
  induction l with
  | nil =>
    intro c fuel hl ht ha hf
    obtain ⟨fuel, rfl⟩ := Nat.exists_eq_add_one_of_ne_zero (Nat.ne_of_gt hf)
    refine ⟨c, ?_, hl, by simp, fun _ _ => rfl, rfl⟩
    rw [tmrsExptimers, show c.queue.head = none from hl]
  | cons j l ih =>
    intro c fuel hl ht ha hf
    obtain ⟨fuel, rfl⟩ := Nat.exists_eq_add_one_of_ne_zero (Nat.ne_of_gt (Nat.zero_lt_of_lt hf))
    have hj : c.timer j = t j := ht j (by simp)
    have hnd := Seg.nodup hl
    rw [List.nodup_cons] at hnd
    rw [tmrsExptimers, show c.queue.head = some j from hl.1]
    dsimp only
    by_cases he : (t j).expTime ≤ now
    · rw [hj, if_pos he, if_pos (ha j (by simp))]
      -- the rest of the queue is the same after the first timer is taken out
      have hne : ∀ i ∈ l, i ≠ j := fun i hi hij => hnd.1 (hij ▸ hi)
      have hf' : l.length < fuel := Nat.lt_of_succ_lt_succ hf
      obtain ⟨c', hc', hh, hn, hfr, hask⟩ := ih (c := {
          c.setFields j { t j with expTime := tmrNever } with
          queue := { c.queue with head := c.queue.next j }
          notified := c.notified ++ [(t j).arg] }) hl.2
        (fun i hi => (Function.update_of_ne (hne i hi) _ _).trans (ht i (by simp [hi])))
        (fun i hi => ha i (by simp [hi])) hf'
      refine ⟨c', hc', ?_, ?_, fun i hi => ?_, hask⟩
      · simpa [he] using hh
      · simpa [he] using hn
      · simp only [List.takeWhile_cons, he, decide_true, if_true, List.mem_cons, not_or] at hi
        exact (hfr i hi.2).trans (Function.update_of_ne hi.1 _ _)
    · rw [hj, if_neg he]
      refine ⟨c, rfl, ?_, by simp [he], fun _ _ => rfl, rfl⟩
      simpa [he] using hl

/-- **The handler notifies each alarm that has expired once** and takes those alarms out of the
queue. -/
theorem Right.clockHandler (h : c.Right l) (ticks now : ℕ) :
    ∃ c' l', c.clockHandler ticks now = some c' ∧ c'.Right l' ∧
      c'.asked = (if c.expires ticks now then c.unexpired now else c.asked) ∧
      ∃ fired : List (Fin nr × Alarm), (fired.map Prod.fst).Nodup ∧
        (∀ i a, (i, a) ∈ fired ↔
          c.expires ticks now = true ∧ c.asked i = some a ∧ a.expTime ≤ now) ∧
        c'.notified = c.notified ++ fired.map fun f => f.2.endpoint := by
  unfold Clock.clockHandler
  by_cases he : c.expires ticks now = true
  case neg =>
    rw [if_neg he, if_neg he]
    exact ⟨c, l, rfl, h, rfl, [], by simp, by simp [he], by simp⟩
  rw [if_pos he, if_pos he]
  have halarm : ∀ i ∈ l, ∃ a, c.asked i = some a ∧ c.timer i = ⟨a.expTime, true, a.endpoint⟩ :=
    fun i hi => by
      obtain ⟨a, ha⟩ := Option.isSome_iff_exists.mp ((h.mem i).mp hi)
      exact ⟨a, ha, h.timer i a ha⟩
  obtain ⟨c', hc', hh, hn, hfr, hask⟩ := tmrsExptimers_spec now (t := c.timer)
    (c := { c with asked := c.unexpired now }) h.holds (fun _ _ => rfl)
    (fun i hi => by obtain ⟨a, -, ht⟩ := halarm i hi; rw [ht]) (length_le h.holds)
  have htake : ∀ i, i ∈ l.takeWhile (fun i => decide ((c.timer i).expTime ≤ now)) ↔
      i ∈ l ∧ (c.timer i).expTime ≤ now := fun i => mem_takeWhile_key h.sorted
  have hdrop : ∀ i, i ∈ l.dropWhile (fun i => decide ((c.timer i).expTime ≤ now)) ↔
      i ∈ l ∧ now < (c.timer i).expTime := fun i => mem_dropWhile_key h.sorted
  have hkept : ∀ i, now < (c.timer i).expTime → c'.timer i = c.timer i := fun i hi =>
    hfr i fun hi' => absurd ((htake i).mp hi').2 (by omega)
  have hun : ∀ i a, c.unexpired now i = some a ↔ c.asked i = some a ∧ now < a.expTime := by
    simp [unexpired, Option.filter_eq_some_iff]
  rw [hc', Option.map_some]
  refine ⟨_, _, rfl, ⟨hh, ?_, fun i => ?_, fun i a ha => ?_, rfl⟩, hask,
    (l.takeWhile fun i => decide ((c.timer i).expTime ≤ now)).map fun i =>
      (i, ⟨(c.timer i).expTime, (c.timer i).arg⟩), ?_, fun i a => ?_, ?_⟩
  · refine (h.sorted.sublist (List.dropWhile_sublist _)).imp_of_mem fun {i j} hi hj hij => ?_
    rw [hkept i ((hdrop i).mp hi).2, hkept j ((hdrop j).mp hj).2]
    exact hij
  · rw [hdrop, show (_ : Fin nr → Option Alarm) = _ from hask, Option.isSome_iff_exists]
    constructor
    · rintro ⟨hi, hlt⟩
      obtain ⟨a, ha, ht⟩ := halarm i hi
      exact ⟨a, (hun i a).mpr ⟨ha, by simpa [ht] using hlt⟩⟩
    · rintro ⟨a, ha⟩
      obtain ⟨ha, hlt⟩ := (hun i a).mp ha
      exact ⟨(h.mem i).mpr (by simp [ha]), by simpa [h.timer i a ha] using hlt⟩
  · have ha' : c.unexpired now i = some a := (congrFun hask i).symm.trans ha
    obtain ⟨ha', hlt⟩ := (hun i a).mp ha'
    have ht := h.timer i a ha'
    exact (hkept i (by simpa [ht] using hlt)).trans ht
  · rw [List.map_map]
    have hid : (Prod.fst ∘ fun i => (i, (⟨(c.timer i).expTime, (c.timer i).arg⟩ : Alarm))) = id :=
      rfl
    rw [hid, List.map_id]
    exact (Seg.nodup h.holds).sublist (List.takeWhile_sublist _)
  · simp only [List.mem_map, htake, Prod.mk.injEq]
    constructor
    · rintro ⟨j, ⟨hj, hle⟩, rfl, rfl⟩
      obtain ⟨a, ha, ht⟩ := halarm j hj
      exact ⟨he, by rw [ha, ht], hle⟩
    · rintro ⟨-, ha, hle⟩
      have ht := h.timer i a ha
      exact ⟨i, ⟨(h.mem i).mpr (by simp [ha]), by simpa [ht] using hle⟩, rfl, by rw [ht]⟩
  · rw [List.map_map]
    exact hn

/-! ### Runs -/

/-- A copy from the kernel meets a timer that is not queued or has the same link there (for
`do_privctl` the same fields), a new process gets an idle timer, and a process that ends with an
alarm is not taken for a remote one. -/
def spares (c : Clock nr) : Request nr → Prop
  | .setalarm p _ _ _ got => got = true → c.queued p → c.kernNext p = c.queue.next p
  | .exit p ok sysproc ownerLocal junk =>
    ok = true → c.queued p → exitRemote sysproc ownerLocal junk = false
  | .unbind p ok remote => ok = true → c.queued p → remote = false
  | .privctl p got _ =>
    got = true → c.queued p → c.kernNext p = c.queue.next p ∧ c.kernTimer p = c.timer p
  | .fork p ok _ => ok = true → ¬ c.queued p
  | .clock => True

theorem Right.serve {r : Request nr} (h : c.Right l) (hs : c.spares r) (ticks now : ℕ) :
    ∃ c' l', serve ticks c now r = some c' ∧ c'.Right l' ∧
      ∀ p, r.about = some p → c'.notified = c.notified ∧ ∀ q, q ≠ p → c'.asked q = c.asked q := by
  have hupd : ∀ (c' : Clock nr) (p : Fin nr) (a : Option Alarm),
      c'.asked = Function.update c.asked p a → c'.notified = c.notified →
      ∀ p', some p = some p' → c'.notified = c.notified ∧ ∀ q, q ≠ p' → c'.asked q = c.asked q := by
    rintro c' p a ha hn p' ⟨rfl⟩
    exact ⟨hn, fun q hq => by rw [ha, Function.update_of_ne hq]⟩
  cases r with
  | setalarm p whoE expTime absTime got =>
    cases got with
    | false => exact ⟨c, l, rfl, h, fun _ _ => ⟨rfl, fun _ _ => rfl⟩⟩
    | true =>
      obtain ⟨c', l', hc', hr, ha, hn⟩ := h.doSetalarm (hs rfl)
      exact ⟨c', l', hc', hr, hupd c' p _ ha hn⟩
  | exit p ok sysproc ownerLocal junk =>
    cases ok with
    | false => exact ⟨c, l, rfl, h, fun _ _ => ⟨rfl, fun _ _ => rfl⟩⟩
    | true =>
      obtain ⟨c', l', hc', hr, ha, hn⟩ := h.endProc (hs rfl)
      exact ⟨c', l', hc', hr, hupd c' p _ ha hn⟩
  | unbind p ok remote =>
    cases ok with
    | false => exact ⟨c, l, rfl, h, fun _ _ => ⟨rfl, fun _ _ => rfl⟩⟩
    | true =>
      obtain ⟨c', l', hc', hr, ha, hn⟩ := h.endProc (hs rfl)
      exact ⟨c', l', hc', hr, hupd c' p _ ha hn⟩
  | privctl p got allowed =>
    cases got with
    | false => exact ⟨c, l, rfl, h, fun _ _ => ⟨rfl, fun _ _ => rfl⟩⟩
    | true =>
      refine ⟨_, l, rfl, h.doPrivctl (hs rfl), fun _ _ => ?_⟩
      cases allowed <;> exact ⟨rfl, fun _ _ => rfl⟩
  | fork p ok got =>
    cases ok with
    | false => exact ⟨c, l, rfl, h, fun _ _ => ⟨rfl, fun _ _ => rfl⟩⟩
    | true =>
      obtain ⟨hr, ha⟩ := h.fork (hs rfl) got
      refine ⟨_, l, rfl, hr, fun _ _ => ⟨?_, fun q _ => by rw [if_pos rfl, ha]⟩⟩
      cases got <;> rfl
  | clock =>
    obtain ⟨c', l', hc', hr, -⟩ := h.clockHandler ticks now
    exact ⟨c', l', hc', hr, fun _ hp => by cases hp⟩

theorem Right.start (next kernNext : Fin nr → Option (Fin nr)) (timer kernTimer : Fin nr → Timer) :
    (Clock.start next kernNext timer kernTimer).Right [] where
  holds := rfl
  sorted := .nil
  mem i := by simp [Clock.start]
  timer i a ha := by simp [Clock.start] at ha
  next := rfl

/-- **Alarms of different processes are independent** in every run whose requests spare the timers
that run: the queue holds the timers of the alarms asked for in order, the next request returns, a
request about one process leaves the timers of the others alone, and the handler notifies each
expired alarm once. -/
theorem alarms_independent (ticks : ℕ) (next kernNext : Fin nr → Option (Fin nr))
    (timer kernTimer : Fin nr → Timer) {ok : Clock nr → ℕ × Request nr → Prop}
    (hok : ∀ d r, ok d r → d.spares r.2) {c : Clock nr}
    (hr : Reachable (step ticks) ok (Clock.start next kernNext timer kernTimer) c) :
    (∃ l, c.queue.Holds l ∧ l.Nodup ∧
      (l.Pairwise fun i j => (c.timer i).expTime ≤ (c.timer j).expTime) ∧
      (∀ i, i ∈ l ↔ (c.asked i).isSome) ∧
      ∀ i a, c.asked i = some a → (c.timer i).expTime = a.expTime) ∧
    ∀ t r, c.now ≤ t → c.spares r → ∃ c', c.step ticks (t, r) = some c' ∧
      (∀ p, r.about = some p → c'.notified = c.notified ∧ ∀ q, q ≠ p →
        (c'.queued q ↔ c.queued q) ∧ (c.queued q → (c'.timer q).expTime = (c.timer q).expTime)) ∧
      (r = .clock → ∃ fired : List (Fin nr × Alarm), (fired.map Prod.fst).Nodup ∧
        (∀ i a, (i, a) ∈ fired ↔
          c.expires ticks t = true ∧ c.asked i = some a ∧ a.expTime ≤ t) ∧
        c'.notified = c.notified ++ fired.map fun f => f.2.endpoint) := by
  have hnow : ∀ {d : Clock nr} {l : List (Fin nr)} (t : ℕ), d.Right l →
      ({ d with now := t } : Clock nr).Right l := fun t hd =>
    hd.congr hd.holds (fun _ _ => rfl) rfl rfl
  obtain ⟨l, h⟩ : ∃ l, c.Right l := by
    refine hr.invariant (I := fun d => ∃ l, d.Right l) ⟨[], .start _ _ _ _⟩ ?_
    rintro d ⟨t, r⟩ d' ⟨l, hd⟩ ha hstep
    unfold step at hstep
    split at hstep
    · obtain ⟨d'', l'', hserve, hr'', -⟩ := (hnow t hd).serve (hok d (t, r) ha) ticks t
      cases hserve.symm.trans hstep
      exact ⟨l'', hr''⟩
    · cases hstep
  have htime : ∀ {d : Clock nr} {l : List (Fin nr)}, d.Right l → ∀ i a, d.asked i = some a →
      (d.timer i).expTime = a.expTime := fun hd i a ha => by rw [hd.timer i a ha]
  refine ⟨⟨l, h.holds, Seg.nodup h.holds, h.sorted, h.mem, htime h⟩, fun t r ht hs => ?_⟩
  obtain ⟨c', l', hserve, h', hothers⟩ := (hnow t h).serve hs ticks t
  have hstep : c.step ticks (t, r) = some c' := by rw [step, if_pos ht, hserve]
  refine ⟨c', hstep, fun p hp => ⟨(hothers p hp).1, fun q hq => ⟨?_, fun hqueued => ?_⟩⟩, ?_⟩
  · rw [h'.queued_iff, h.queued_iff, (hothers p hp).2 q hq]
  · obtain ⟨a, ha⟩ := Option.isSome_iff_exists.mp (h.queued_iff.mp hqueued)
    rw [htime h q a ha, htime h' q a (((hothers p hp).2 q hq).trans ha)]
  · rintro rfl
    obtain ⟨d, -, hd, -, -, fired, hnd, hmem, hnot⟩ := (hnow t h).clockHandler ticks t
    cases hserve.symm.trans hd
    exact ⟨fired, hnd, hmem, hnot⟩

def zeroTimer : Timer := ⟨0, false, 0⟩

def twoProcs : Clock 2 :=
  .start (fun _ => none) (fun _ => none) (fun _ => zeroTimer) fun _ => zeroTimer

theorem alarms_independent_two :
    ∃ c, Reachable (step 100) (fun d r => d.spares r.2) twoProcs c ∧
      (c.asked 1).isSome ∧ ∃ l, c.queue.Holds l ∧ 1 ∈ l := by
  have hr : Reachable (step 100) (fun d r => d.spares r.2) twoProcs _ :=
    .step (.step .init (a := (0, .setalarm 0 100 50 true true)) (fun _ _ => rfl) rfl)
      (a := (10, .setalarm 1 101 70 true true)) (fun _ _ => rfl) rfl
  obtain ⟨l, hl, -, -, hmem, -⟩ := (alarms_independent 100 _ _ _ _ (fun _ _ h => h) hr).1
  exact ⟨_, hr, rfl, l, hl, (hmem 1).mpr rfl⟩

/-! ### The time left -/

section TimeLeft

variable {d : Clock nr}

theorem kernTimer_tmrsClrtimer (h : c.tmrsClrtimer p = some d) : d.kernTimer = c.kernTimer := by
  obtain ⟨q, -, rfl⟩ := Option.map_eq_some_iff.mp h
  rfl

theorem kernTimer_resetTimer (h : c.resetTimer p = some d) : d.kernTimer = c.kernTimer := by
  obtain ⟨e, he, rfl⟩ := Option.map_eq_some_iff.mp h
  exact (kernTimer_tmrsClrtimer he :)

theorem kernTimer_setTimer {t : ℕ} (h : c.setTimer p t = some d) :
    d.kernTimer = c.kernTimer := by
  obtain ⟨e, he, hd⟩ := Option.bind_eq_some_iff.mp h
  obtain ⟨i, -, rfl⟩ := Option.map_eq_some_iff.mp hd
  obtain ⟨e', he', hq⟩ := Option.bind_eq_some_iff.mp he
  obtain ⟨q, -, rfl⟩ := Option.map_eq_some_iff.mp hq
  exact (kernTimer_tmrsClrtimer he' :)

theorem kernTimer_tmrsExptimers (now : ℕ) : ∀ (fuel : ℕ) {c d : Clock nr},
    tmrsExptimers now fuel c = some d → d.kernTimer = c.kernTimer := by
  intro fuel
  induction fuel with
  | zero => intro c d h; cases h
  | succ fuel ih =>
    intro c d h
    unfold tmrsExptimers at h
    split at h
    · cases h
      rfl
    · split_ifs at h
      · exact (ih h :)
      · cases h
        rfl

/-- What `do_privctl` stores in the kernel is what it has just got from there. -/
theorem kernTimer_doPrivctl (c : Clock nr) (p : Fin nr) (allowed : Bool) :
    (c.doPrivctl p allowed).kernTimer = c.kernTimer := by
  unfold doPrivctl
  split_ifs
  · simp [getpriv, setpriv, setFields]
  · rfl

theorem kernTimer_serve {ticks now : ℕ} {r : Request nr} (h : c.serve ticks now r = some d) :
    d.kernTimer = c.kernTimer := by
  cases r with
  | setalarm | exit | unbind =>
    simp only [serve, doSetalarm, endProc] at h
    split_ifs at h <;>
      first | exact (kernTimer_resetTimer h :) | exact (kernTimer_setTimer h :) | (cases h; rfl)
  | privctl p got allowed =>
    cases h
    split_ifs
    · exact kernTimer_doPrivctl c p allowed
    · rfl
  | fork p ok got =>
    cases h
    split_ifs <;> rfl
  | clock =>
    simp only [serve, clockHandler] at h
    split_ifs at h
    · obtain ⟨e, he, rfl⟩ := Option.map_eq_some_iff.mp h
      exact (kernTimer_tmrsExptimers now _ he :)
    · cases h
      rfl

/-- **The time left is never that of an alarm**: `do_setalarm` reads it off the timer that it has
just copied from the kernel, where no request ever changes it. -/
theorem timeLeft_of_start (ticks : ℕ) (next kernNext : Fin nr → Option (Fin nr))
    (timer kernTimer : Fin nr → Timer) {ok : Clock nr → ℕ × Request nr → Prop} {c : Clock nr}
    (hr : Reachable (step ticks) ok (Clock.start next kernNext timer kernTimer) c) (p : Fin nr)
    (now : ℕ) : c.timeLeft p now = (Clock.start next kernNext timer kernTimer).timeLeft p now := by
  have hkern : c.kernTimer = kernTimer :=
    hr.invariant (I := fun d => d.kernTimer = kernTimer) rfl fun d r d' hd _ hs => by
      unfold step at hs
      split_ifs at hs
      exact (kernTimer_serve hs :).trans hd
  unfold timeLeft getpriv setFields
  rw [hkern]
  simp [Clock.start]

end TimeLeft

/-- An alarm at 50 is pending at 10, with no time left. -/
theorem timeLeft_of_start_two : ∃ c, Reachable (step 100) (fun _ _ => True) twoProcs c ∧
    c.asked 0 = some ⟨50, 100⟩ ∧ c.timeLeft 0 10 = 0 := by
  have hr : Reachable (step 100) (fun _ _ => True) twoProcs _ :=
    .step .init (a := (0, .setalarm 0 100 50 true true)) trivial rfl
  exact ⟨_, hr, rfl, timeLeft_of_start 100 _ _ _ _ hr 0 10⟩

/-- **An alarm that is lost.** Process 0 sets an alarm, process 1 a later one, and process 0 sets
its alarm again: the copy from the kernel cuts the queue behind the timer of process 0. -/
theorem alarm_lost :
    ∃ c, Reachable (step 100) (fun _ _ => True) twoProcs c ∧
      c.asked 1 = some ⟨70, 101⟩ ∧ c.queue.Holds [0] := by
  obtain ⟨c, hc, h⟩ := exists_reachable_of_exec (step 100) (fun _ _ => True) twoProcs
    (fun c => decide (c.asked 1 = some ⟨70, 101⟩ ∧ c.queue.head = some 0 ∧ c.queue.next 0 = none))
    [(0, .setalarm 0 100 50 true true), (10, .setalarm 1 101 70 true true),
      (20, .setalarm 0 100 60 true true)] (by decide)
  obtain ⟨ha, h0, hn⟩ := of_decide_eq_true h
  exact ⟨c, hc, ha, h0, hn⟩

end Clock

end Alarms

end MolIpc
