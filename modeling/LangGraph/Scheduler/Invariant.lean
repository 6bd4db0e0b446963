import LangGraph.Scheduler.Projection

/-!
# The invariant of the scheduler

Every life is sound, the accepted tasks are those whose call was accepted, and the counter of active
tasks counts the accepted ones that are active.
-/

namespace LangGraph

open Function List

namespace Scheduler

/-! ## 1. Counting under an update -/

theorem countP_update {α : Type} [DecidableEq α] {l : List α} (hl : l.Nodup) {a : α} (ha : a ∈ l)
    (p : α → Bool) (b : Bool) :
    l.countP (update p a b) + (p a).toNat = l.countP p + b.toNat := by
  induction l with
  | nil => cases ha
  | cons x l ih =>
    obtain ⟨hx, hl⟩ := nodup_cons.mp hl
    rw [countP_cons, countP_cons]
    by_cases heq : x = a
    · subst heq
      have hrest : l.countP (update p x b) = l.countP p := by
        refine countP_congr fun y hy => ?_
        rw [update_of_ne (ne_of_mem_of_not_mem hy hx)]
      rw [hrest, update_self]
      cases p x <;> cases b <;> simp
    · have hrest := ih hl ((mem_cons.mp ha).resolve_left (Ne.symm heq))
      rw [update_of_ne heq]; omega

/-! ## 2. The books -/

namespace State

/-- The part of the state that says which tasks there are and how many of them are active. -/
structure Books (s : State) : Prop where
  nodup : s.accepted.Nodup
  mem_iff : ∀ task, task ∈ s.accepted ↔ s.call task = .accepted
  active : s.active = s.accepted.countP fun task => (s.record task).active
  doomed : ∀ number records again, s.closer number = .cancelling records again →
    ∀ task ∈ records, s.call task = .accepted

variable {s s' : State} {task : TaskId}

structure SameBooks (s s' : State) : Prop where
  accepted : s'.accepted = s.accepted
  call : s'.call = s.call
  active : s'.active = s.active
  record : s'.record = s.record
  closer : s'.closer = s.closer

theorem Books.same (hs : s.Books) (h : SameBooks s s') : s'.Books where
  nodup := h.accepted ▸ hs.nodup
  mem_iff task := by rw [h.accepted, h.call]; exact hs.mem_iff task
  active := by rw [h.active, h.accepted, h.record]; exact hs.active
  doomed number records again hcloser := by
    rw [h.closer] at hcloser
    rw [h.call]; exact hs.doomed number records again hcloser

theorem Books.write (hs : s.Books) (hcall : s.call task = .accepted) {result : TaskRecord × Bool}
    (hoperates : (s.record task).Operates result) : (s.write task result).Books where
  __ := hs
  active := by
    have hmem : task ∈ s.accepted := (hs.mem_iff task).mpr hcall
    have hcount := countP_update hs.nodup hmem (fun task => (s.record task).active) result.1.active
    have hupdate : (fun other => (update s.record task result.1 other).active) =
        update (fun other => (s.record other).active) task result.1.active := by
      funext other
      by_cases heq : other = task
      · subst heq
        rw [update_self, update_self]
      · rw [update_of_ne heq, update_of_ne heq]
    have hbefore := hs.active
    obtain ⟨hactive, hended⟩ := hoperates
    simp only [State.write, hupdate]
    rw [hactive] at hcount ⊢
    cases hresult : result.2 with
    | false =>
      rw [hresult] at hcount
      simp only [Bool.not_false, Bool.and_true, Bool.false_eq_true, if_false] at hcount ⊢
      omega
    | true =>
      rw [hresult] at hcount
      simp only [hended hresult, Bool.not_true, Bool.and_false, Bool.toNat_true, Bool.toNat_false,
        if_true] at hcount ⊢
      omega

theorem Books.moveCloser (hs : s.Books) {number : Nat} {closer : Closer}
    (hdoomed : ∀ records again, closer = .cancelling records again →
      ∀ task ∈ records, s.call task = .accepted) : (s.moveCloser number closer).Books where
  __ := hs
  doomed other records again hcloser := by
    by_cases heq : other = number
    · subst heq
      refine hdoomed records again ?_
      simpa [State.moveCloser] using hcloser
    · refine hs.doomed other records again ?_
      simpa [State.moveCloser, update_of_ne heq] using hcloser

section

variable (hs : s.Books) (hcall : s.call task ≠ .accepted)

include hs hcall

theorem Books.setCall {call : Call} (hnew : call ≠ .accepted) : (s.setCall task call).Books where
  __ := hs
  mem_iff other := by
    simp only [State.setCall]
    by_cases heq : other = task
    · subst heq
      rw [update_self]
      exact iff_of_false (fun hmem => hcall ((hs.mem_iff other).mp hmem)) hnew
    · rw [update_of_ne heq]; exact hs.mem_iff other
  doomed number records again hcloser other hother := by
    have hold := hs.doomed number records again hcloser other hother
    have hne : other ≠ task := by
      intro heq
      rw [heq] at hold; exact hcall hold
    simpa [State.setCall, update_of_ne hne] using hold

theorem Books.accept (hactive : (s.record task).active = true) : (s.accept task).Books where
  nodup := nodup_cons.mpr ⟨fun hmem => hcall ((hs.mem_iff task).mp hmem), hs.nodup⟩
  mem_iff other := by
    simp only [State.accept, State.setCall]
    by_cases heq : other = task
    · simp [heq]
    · rw [update_of_ne heq, ← hs.mem_iff other]; simp [heq]
  active := by
    simp only [State.accept, State.setCall, countP_cons, hactive, if_true]
    rw [← hs.active]
  doomed number records again hcloser other hother := by
    have hold := hs.doomed number records again hcloser other hother
    simp only [State.accept, State.setCall]
    by_cases heq : other = task
    · rw [heq, update_self]
    · rw [update_of_ne heq]; exact hold

theorem Books.reject : (s.reject task).Books := by
  have hbooks : (s.setCall task .rejected).Books := hs.setCall hcall nofun
  have hmem : task ∉ s.accepted := fun hmem => hcall ((hs.mem_iff task).mp hmem)
  exact {
    __ := hbooks
    active := by
      simp only [State.reject, State.setCall]
      rw [hs.active]
      refine countP_congr fun other hother => ?_
      rw [update_of_ne (ne_of_mem_of_not_mem hother hmem)] }

end

/-! ## 3. The invariant -/

structure Inv (requests : TaskId → Request) (s : State) : Prop where
  books : s.Books
  lives : ∀ task, ∃ place, (s.life task).Sound (requests task).job place

section Steps

variable {requests : TaskId → Request}

theorem Inv.initial : Inv requests {} where
  books :=
    { nodup := nodup_nil
      mem_iff := fun _ => iff_of_false not_mem_nil nofun
      active := rfl
      doomed := nofun }
  lives _ := ⟨.nowhere, Life.Sound.initial⟩

theorem Inv.accepted_of_carrier (h : Inv requests s) {c : Carrier} (hc : c ∈ s.carriers) :
    s.call c.task = .accepted := by
  obtain ⟨place, hsound⟩ := h.lives c.task
  exact (hsound.held (mem_life_carriers hc)).2.2.2

theorem Inv.accepted_of_queue (h : Inv requests s) (hmem : task ∈ s.queuedTasks) :
    s.call task = .accepted := by
  obtain ⟨place, hsound⟩ := h.lives task
  obtain ⟨entry, hentry, htask⟩ := mem_map.mp hmem
  have hpos : 0 < (s.life task).waiting :=
    countP_pos_iff.mpr ⟨entry, hentry, by simp [htask]⟩
  by_contra hne
  rw [hsound.waiting, hsound.accepted hne] at hpos; exact Nat.lt_irrefl 0 hpos

theorem Inv.known (h : Inv requests s) : s.Known where
  doomed := h.books.doomed
  active c hc hphase := by
    obtain ⟨place, hsound⟩ := h.lives c.task
    obtain ⟨rfl, _⟩ := hsound.held (mem_life_carriers hc)
    exact (hsound.late hphase).2

theorem sameBooks_post (request : Request) (c : Carrier) (result : Posting) :
    SameBooks s (s.post request c result) := by
  cases result <;> exact ⟨rfl, rfl, rfl, rfl, rfl⟩

theorem sameBooks_check (request : Request) (c : Carrier) :
    SameBooks s (s.check request c) := by
  unfold State.check
  split <;> exact ⟨rfl, rfl, rfl, rfl, rfl⟩

theorem sameBooks_attemptEnds (policy : RetryPolicy) (c : Carrier) (result : Outcome)
    (delay : Result Int) : SameBooks s (s.attemptEnds policy c result delay) := by
  unfold attemptEnds
  split
  · exact ⟨rfl, rfl, rfl, rfl, rfl⟩
  · split
    · exact ⟨rfl, rfl, rfl, rfl, rfl⟩
    · split <;> exact ⟨rfl, rfl, rfl, rfl, rfl⟩

theorem sameBooks_callEnds (request : Request) (c : Carrier) (result : CallResult)
    (delay : Result Int) : SameBooks s (s.callEnds request c result delay) := by
  unfold callEnds
  cases request.job with
  | retry policy =>
    exact sameBooks_attemptEnds policy c _ delay
  | _ => cases result <;> exact ⟨rfl, rfl, rfl, rfl, rfl⟩

theorem sameBooks_count (request : Request) (c : Carrier) : SameBooks s (s.count request c) := by
  unfold State.count
  cases request.job with
  | periodic =>
    simp only
    split <;> exact ⟨rfl, rfl, rfl, rfl, rfl⟩
  | _ => exact ⟨rfl, rfl, rfl, rfl, rfl⟩

theorem sameBooks_complete (request : Request) (c : Carrier) (finalState : ScheduledTaskState)
    (status : Outcome) : SameBooks s (s.complete request c finalState status) := by
  unfold State.complete
  split <;> exact ⟨rfl, rfl, rfl, rfl, rfl⟩

theorem Inv.books_startTask (h : Inv requests s) {c : Carrier} (hc : c ∈ s.carriers) :
    (s.startTask c).Books := by
  unfold startTask
  cases hstart : (s.record c.task).start with
  | none => exact h.books.same ⟨rfl, rfl, rfl, rfl, rfl⟩
  | some r =>
    obtain ⟨_, _, _, hr⟩ := TaskRecord.start_eq_some hstart
    have hoperates : (s.record c.task).Operates (r, false) := ⟨by simp [hr], nofun⟩
    have hwritten := h.books.write (h.accepted_of_carrier hc) hoperates
    exact hwritten.same ⟨rfl, rfl, rfl, rfl, rfl⟩

theorem Inv.books_finishTask (h : Inv requests s) {c : Carrier} (hc : c ∈ s.carriers)
    (finalState : ScheduledTaskState) (status : Outcome) (attempt : Nat) :
    (s.finishTask c finalState status attempt).Books := by
  have hwritten := h.books.write (h.accepted_of_carrier hc)
    (TaskRecord.finish_operates finalState status)
  unfold finishTask
  simp only
  split <;> exact hwritten.same ⟨rfl, rfl, rfl, rfl, rfl⟩

theorem Inv.books_reschedule (h : Inv requests s) {c : Carrier} (hc : c ∈ s.carriers) (due : Due) :
    (s.reschedule c due).Books := by
  have hwritten := h.books.write (h.accepted_of_carrier hc)
    (TaskRecord.reschedule_operates s.closed)
  unfold State.reschedule
  simp only
  split <;> exact hwritten.same ⟨rfl, rfl, rfl, rfl, rfl⟩

theorem Books.requestCancel (h : s.Books) (hcall : s.call task = .accepted) (operator : Operator)
    (status : Status) : (s.requestCancel operator task status).Books := by
  unfold State.requestCancel
  cases hcancel : (s.record task).requestCancel (.error status) with
  | none => exact h
  | some =>
    have hwritten := h.write hcall (TaskRecord.requestCancel_operates hcancel)
    simp only
    split <;> exact hwritten.same ⟨rfl, rfl, rfl, rfl, rfl⟩

theorem requestCancel_call (operator : Operator) (status : Status) :
    (s.requestCancel operator task status).call = s.call := by
  unfold State.requestCancel
  split
  · rfl
  · split <;> rfl

theorem Inv.books_enter (h : Inv requests s) {due : Int} (hcall : s.call task = .made due) :
    (s.enter task due).Books := by
  have hne : s.call task ≠ .accepted := by rw [hcall]; exact nofun
  obtain ⟨place, hsound⟩ := h.lives task
  have hactive : (s.record task).active = true := by
    have hfresh : s.record task = {} := (hsound.fresh due (Or.inr hcall)).1
    rw [hfresh]
  unfold enter
  split
  · exact h.books.reject hne
  · exact (h.books.accept hne hactive).same ⟨rfl, rfl, rfl, rfl, rfl⟩

theorem Books.make (h : s.Books) (request : Request) (hcall : s.call task = .unmade) :
    (s.make request task).Books := by
  have hne : s.call task ≠ .accepted := by rw [hcall]; exact nofun
  unfold State.make
  split
  · exact h.setCall hne nofun
  · have hmade : (s.setCall task (.made (request.job.firstDue s.now))).Books :=
      h.setCall hne nofun
    exact hmade.same ⟨rfl, rfl, rfl, rfl, rfl⟩

section

variable (h : Inv requests s)

include h

theorem Inv.books_close (number : Nat) (policy : SchedulerClosePolicy) :
    (s.close number policy).Books := by
  have hnone : (s.moveCloser number (.cancelling [] false)).Books := by
    refine h.books.moveCloser fun records again heq => ?_
    cases heq; exact nofun
  unfold close
  split
  · exact hnone
  · cases policy with
    | drainPending => exact hnone.same ⟨rfl, rfl, rfl, rfl, rfl⟩
    | cancelPending =>
      have hall : (s.moveCloser number (.cancelling s.queuedTasks false)).Books := by
        refine h.books.moveCloser fun records again heq => ?_
        cases heq; exact fun task hmem => h.accepted_of_queue hmem
      exact hall.same ⟨rfl, rfl, rfl, rfl, rfl⟩

theorem Inv.books_cancelRecord {number : Nat} (hstep : s.cancelRecord number = some s') :
    s'.Books := by
  unfold cancelRecord at hstep
  split at hstep
  · rename_i task rest again hcloser
    cases hstep
    have hdoomed := h.books.doomed number _ again hcloser
    refine (h.books.requestCancel (hdoomed task mem_cons_self) _ _).moveCloser ?_
    intro records again heq
    cases heq
    intro other hother
    rw [requestCancel_call]; exact hdoomed other (mem_cons_of_mem task hother)
  · cases hstep; exact h.books.moveCloser nofun
  · cases hstep; exact h.books.moveCloser nofun
  · cases hstep

theorem Inv.books_step {move : Move} (hstep : s.step requests move = some s') : s'.Books := by
  cases change_of_step requests hstep with
  | tick | stop | take | discard => exact h.books.same ⟨rfl, rfl, rfl, rfl, rfl⟩
  | make hcall => exact h.books.make _ hcall
  | enter hcall => exact h.books_enter hcall
  | fire hfire =>
    unfold fire at hfire
    split at hfire
    · cases hfire
    · obtain ⟨_, hs'⟩ := Option.ite_none_right_eq_some.mp hfire
      cases hs'; exact h.books.same ⟨rfl, rfl, rfl, rfl, rfl⟩
  | start hmem => exact h.books_startTask hmem
  | post result => exact h.books.same (sameBooks_post _ _ result)
  | check => exact h.books.same (sameBooks_check _ _)
  | callEnds result delay =>
    exact h.books.same (sameBooks_callEnds _ _ result delay)
  | count => exact h.books.same (sameBooks_count _ _)
  | complete => exact h.books.same (sameBooks_complete _ _ _ _)
  | finish hmem => exact h.books_finishTask hmem _ _ _
  | reschedule hmem => exact h.books_reschedule hmem _
  | cancel status hcall => exact h.books.requestCancel hcall _ _
  | close number policy => exact h.books_close number policy
  | cancelRecord hcancel => exact h.books_cancelRecord hcancel
  | announce number =>
    have hmoved : (s.moveCloser number .waitingIdle).Books := h.books.moveCloser nofun
    exact hmoved.same ⟨rfl, rfl, rfl, rfl, rfl⟩
  | idle => exact h.books.moveCloser nofun
  | expire number =>
    have hmoved : (s.moveCloser number (.cancelling s.queuedTasks true)).Books := by
      refine h.books.moveCloser fun records again heq => ?_
      cases heq; exact fun task hmem => h.accepted_of_queue hmem
    exact hmoved.same ⟨rfl, rfl, rfl, rfl, rfl⟩
  | publish hpublish =>
    obtain ⟨debt, _, rfl⟩ := Option.map_eq_some_iff.mp hpublish
    exact h.books.same ⟨rfl, rfl, rfl, rfl, rfl⟩

theorem Inv.step {move : Move} (hstep : s.step requests move = some s') :
    Inv requests s' where
  books := h.books_step hstep
  lives task := by
    obtain ⟨place, hsound⟩ := h.lives task
    rcases follows_step h.known hstep task with hsame | ⟨regular, hlife, _⟩
    · exact ⟨place, hsame ▸ hsound⟩
    · exact hsound.step hlife

theorem Inv.run {moves : List Move}
    (hrun : Interleaving.run (State.step requests) moves s = some s') : Inv requests s' :=
  Interleaving.invariant (fun hs hmove => hs.step hmove) h hrun

end

end Steps

end State

end Scheduler

end LangGraph
