import Mathlib

/-!
# Fork and join in batches

`count` pieces of work are done `width` at a time.  A batch of one is run in place; a larger one is
handed to workers piece by piece, who may take the pieces they accepted in any order, and once the
whole batch is handed over its results are collected in the order of the pieces.  Whatever the
workers do, the results are those of doing the pieces one after the other.
-/

namespace ForkJoin

open List Nat

variable {β : Type}

/-- The work: `refusal` gives the result that stands in for a piece the workers do not accept. -/
structure Job (β : Type) where
  count : Nat
  width : Nat
  run : Nat → β
  refusal : Nat → Option β
  width_pos : 0 < count → 0 < width

inductive Slot (β : Type) where
  | waiting
  | finished (value : β)
  | refused (value : β)

def Slot.value : Slot β → Option β
  | waiting => none
  | finished value => some value
  | refused value => some value

def Slot.isWaiting : Slot β → Bool
  | waiting => true
  | finished _ => false
  | refused _ => false

/-- The batch starts at `first`; `slots` holds its pieces handed over so far. -/
structure Machine (β : Type) where
  first : Nat
  slots : List (Slot β)
  results : List β
  executed : List Nat

def start : Machine β where
  first := 0
  slots := []
  results := []
  executed := []

namespace Job

variable (job : Job β)

def size (first : Nat) : Nat := min job.width (job.count - first)

def slot (index : Nat) : Slot β :=
  match job.refusal index with
  | some value => .refused value
  | none => .waiting

/-- The moves of the thread that hands over and collects, and of the workers (`work`). -/
inductive Step : Machine β → Machine β → Prop
  | inline {m : Machine β} (hsize : job.size m.first = 1) :
      Step m { first := m.first + job.width, slots := [],
               results := m.results ++ [job.run m.first], executed := m.executed ++ [m.first] }
  | submit {m : Machine β} (hsize : job.size m.first ≠ 1)
      (hroom : m.slots.length < job.size m.first) :
      Step m { m with slots := m.slots ++ [job.slot (m.first + m.slots.length)] }
  | work {m : Machine β} (place : Nat) (hwaiting : m.slots[place]? = some .waiting) :
      Step m { m with slots := m.slots.set place (.finished (job.run (m.first + place)))
                      executed := m.executed ++ [m.first + place] }
  | collect {m : Machine β} {slot : Slot β} {value : β} (hfull : m.slots.length = job.size m.first)
      (hslot : m.slots[m.results.length - m.first]? = some slot) (hvalue : slot.value = some value) :
      Step m { m with results := m.results ++ [value] }
  | next {m : Machine β} (hsize : job.size m.first ≠ 1) (hmore : m.first < job.count)
      (hdone : m.results.length = m.first + job.size m.first) :
      Step m { m with first := m.first + job.width, slots := [] }

def Reachable (m : Machine β) : Prop := Relation.ReflTransGen job.Step start m

def Finished (m : Machine β) : Prop := job.count ≤ m.first

/-! ## 1. What the pieces come to -/

/-- Number of pieces in the batch that holds piece `index`. -/
def batchSize (index : Nat) : Nat := job.size (index / job.width * job.width)

def Accepted (index : Nat) : Prop := job.batchSize index = 1 ∨ job.refusal index = none

def outcome (index : Nat) : β :=
  if job.batchSize index = 1 then job.run index else (job.refusal index).getD (job.run index)

def Holds (index : Nat) : Slot β → Prop
  | .waiting => job.refusal index = none
  | .finished value => job.refusal index = none ∧ value = job.run index
  | .refused value => job.refusal index = some value

variable {place : Nat} {slot : Slot β} {value : β}

theorem batchSize_of_aligned {first : Nat} (haligned : job.width ∣ first)
    (hplace : place < job.width) : job.batchSize (first + place) = job.size first := by
  obtain ⟨batch, rfl⟩ := haligned
  have hdiv : (job.width * batch + place) / job.width = batch := by
    rw [Nat.mul_add_div (by omega), Nat.div_eq_of_lt hplace, Nat.add_zero]
  unfold batchSize
  rw [hdiv, Nat.mul_comm]

theorem size_le_width (first : Nat) : job.size first ≤ job.width := min_le_left _ _

theorem add_size_le {first : Nat} (hmore : first < job.count) :
    first + job.size first ≤ job.count := by
  unfold size; omega

theorem add_size_eq (first : Nat) : min (first + job.width) job.count ≤ first + job.size first := by
  unfold size; omega

theorem holds_slot (index : Nat) : job.Holds index (job.slot index) := by
  unfold slot
  cases hrefusal : job.refusal index with
  | none | some => exact hrefusal

theorem Holds.outcome {job : Job β} {index : Nat} (h : job.Holds index slot)
    (hsize : job.batchSize index ≠ 1) (hvalue : slot.value = some value) :
    value = job.outcome index := by
  unfold Job.outcome
  rw [if_neg hsize]
  cases slot with
  | waiting => cases hvalue
  | finished =>
    cases hvalue
    rw [h.1, h.2]; rfl
  | refused =>
    cases hvalue
    rw [show job.refusal index = some value from h]; rfl

/-! ## 2. The invariant -/

/-- The piece's call is over: its batch is, or its slot says so. -/
def Done (m : Machine β) (index : Nat) : Prop :=
  index < m.first ∨ ∃ place value, index = m.first + place ∧
    m.slots[place]? = some (.finished value)

structure Inv (m : Machine β) : Prop where
  aligned : job.width ∣ m.first
  past : min m.first job.count ≤ m.results.length
  handedOver : m.results.length ≤ m.first + m.slots.length
  inCount : m.results.length ≤ job.count
  inBatch : m.slots.length ≤ job.size m.first
  parallel : m.slots ≠ [] → job.size m.first ≠ 1
  holds : ∀ place slot, m.slots[place]? = some slot → job.Holds (m.first + place) slot
  collected : ∀ place, m.first + place < m.results.length → m.slots[place]? ≠ some .waiting
  results : m.results = (List.range m.results.length).map job.outcome
  nodup : m.executed.Nodup
  executed : ∀ index, index ∈ m.executed ↔ index < job.count ∧ job.Accepted index ∧ Done m index

theorem inv_start : job.Inv start where
  aligned := Nat.dvd_zero _
  past := by simp [start]
  handedOver := le_refl _
  inCount := zero_le _
  inBatch := zero_le _
  parallel := fun h => absurd rfl h
  holds := by simp [start]
  collected := by simp [start]
  results := rfl
  nodup := nodup_nil
  executed := by simp [start, Done]

theorem results_append {m : Machine β}
    (hresults : m.results = (range m.results.length).map job.outcome)
    (hvalue : value = job.outcome m.results.length) :
    m.results ++ [value] = (range (m.results ++ [value]).length).map job.outcome := by
  rw [length_append, length_singleton, range_succ, map_append, ← hresults, hvalue]
  rfl

variable {job} {m : Machine β}

section

variable (h : job.Inv m)

include h

theorem Inv.size_lt (hslot : m.slots[place]? = some slot) :
    place < m.slots.length ∧ place < job.width := by
  have hplace : place < m.slots.length := (List.getElem?_eq_some_iff.mp hslot).1
  exact ⟨hplace, by have := h.inBatch; have := job.size_le_width m.first; omega⟩

theorem Inv.batchSize_ne (hslot : m.slots[place]? = some slot) :
    job.batchSize (m.first + place) ≠ 1 := by
  have hplace := h.size_lt hslot
  rw [job.batchSize_of_aligned h.aligned hplace.2]
  exact h.parallel (ne_nil_of_length_pos (by omega))

theorem Inv.results_of_no_slots (hslots : m.slots = []) (hmore : m.first < job.count) :
    m.results.length = m.first := by
  have hpast := h.past
  have hover := h.handedOver
  rw [hslots, length_nil] at hover; omega

theorem Inv.inline (hsize : job.size m.first = 1) :
    job.Inv { first := m.first + job.width, slots := [],
              results := m.results ++ [job.run m.first], executed := m.executed ++ [m.first] } := by
  have hslots : m.slots = [] := by
    by_contra hne
    exact h.parallel hne hsize
  have hmore : m.first < job.count := by unfold size at hsize; omega
  have hwidth := job.width_pos (by omega)
  have hlength := h.results_of_no_slots hslots hmore
  have hreach := job.add_size_eq m.first
  have hone : job.batchSize m.first = 1 := by
    have heq : job.batchSize (m.first + 0) = job.size m.first :=
      job.batchSize_of_aligned h.aligned hwidth
    rw [Nat.add_zero] at heq
    rw [heq, hsize]
  have hvalue : job.run m.first = job.outcome m.results.length := by
    unfold outcome
    rw [hlength, if_pos hone]
  have hlast : ∀ index, index < job.count → m.first < index → ¬ index < m.first + job.width := by
    intro index hindex hlt
    unfold size at hsize; omega
  exact {
    aligned := Nat.dvd_add h.aligned (Nat.dvd_refl _)
    past := by simp only [length_append, length_singleton]; omega
    handedOver := by simp only [length_append, length_singleton]; omega
    inCount := by simp only [length_append, length_singleton]; omega
    inBatch := zero_le _
    parallel := fun hne => absurd rfl hne
    holds := by simp
    collected := by simp
    results := job.results_append h.results hvalue
    nodup := by
      -- the piece was not run before: it is not in an earlier batch
      refine Nodup.append h.nodup (nodup_singleton _) ?_
      rw [disjoint_singleton]
      intro hmem
      obtain ⟨-, -, hlt | ⟨place, value, -, hslot⟩⟩ := (h.executed _).mp hmem
      · omega
      · rw [hslots] at hslot; cases hslot
    executed := by
      intro index
      rw [mem_append, mem_singleton, h.executed]
      constructor
      · rintro (⟨hcount, haccepted, hlt | ⟨place, value, -, hslot⟩⟩ | rfl)
        · exact ⟨hcount, haccepted, .inl (by dsimp only; omega)⟩
        · rw [hslots] at hslot; cases hslot
        · exact ⟨hmore, .inl hone, .inl (by dsimp only; omega)⟩
      · rintro ⟨hcount, haccepted, hlt | ⟨place, value, -, hslot⟩⟩
        · rcases lt_trichotomy index m.first with hbefore | heq | hafter
          · exact .inl ⟨hcount, haccepted, .inl hbefore⟩
          · exact .inr heq
          · exact absurd hlt (hlast index hcount hafter)
        · cases hslot }

theorem Inv.submit (hsize : job.size m.first ≠ 1) (hroom : m.slots.length < job.size m.first) :
    job.Inv { m with slots := m.slots ++ [job.slot (m.first + m.slots.length)] } := by
  -- the new slot is the last one and is not finished yet
  have hnew : ∀ place slot, (m.slots ++ [job.slot (m.first + m.slots.length)])[place]? = some slot →
        m.slots[place]? = some slot
          ∨ place = m.slots.length ∧ slot = job.slot (m.first + m.slots.length) := by
    intro place slot hslot
    rcases lt_or_ge place m.slots.length with hlt | hge
    · rw [getElem?_append_left hlt] at hslot; exact .inl hslot
    · have hplace := (List.getElem?_eq_some_iff.mp hslot).1
      rw [length_append, length_singleton] at hplace
      obtain rfl : place = m.slots.length := by omega
      rw [getElem?_concat_length] at hslot
      exact .inr ⟨rfl, (Option.some.inj hslot).symm⟩
  have hunfinished : ∀ value, job.slot (m.first + m.slots.length) ≠ .finished value := by
    intro value
    unfold slot
    split <;> nofun
  exact {
    __ := h
    handedOver := by
      have := h.handedOver
      simp only [length_append]; omega
    inBatch := by
      simp only [length_append, length_singleton]; omega
    parallel := fun _ => hsize
    holds := by
      intro place slot hslot
      rcases hnew place slot hslot with hold | ⟨rfl, rfl⟩
      · exact h.holds place slot hold
      · exact job.holds_slot _
    collected := by
      intro place hplace hslot
      rcases hnew place _ hslot with hold | ⟨rfl, -⟩
      · exact h.collected place hplace hold
      · have := h.handedOver
        dsimp only at hplace; omega
    executed := by
      intro index
      rw [h.executed]
      refine and_congr_right fun _ => and_congr_right fun _ => ?_
      unfold Done
      refine or_congr_right (exists_congr fun place => exists_congr fun value =>
        and_congr_right fun _ => ⟨fun hslot => ?_, fun hslot => ?_⟩)
      · rw [← hslot]; exact getElem?_append_left (h.size_lt hslot).1
      · rcases hnew place _ hslot with hold | ⟨-, heq⟩
        · exact hold
        · exact absurd heq.symm (hunfinished value) }

theorem Inv.work (hwaiting : m.slots[place]? = some .waiting) :
    job.Inv { m with slots := m.slots.set place (.finished (job.run (m.first + place)))
                     executed := m.executed ++ [m.first + place] } := by
  have hplace := h.size_lt hwaiting
  have hcount : m.first + place < job.count := by
    have hbatch := h.inBatch
    unfold size at hbatch; omega
  have hself : (m.slots.set place (.finished (job.run (m.first + place))))[place]?
      = some (.finished (job.run (m.first + place))) := getElem?_set_self hplace.1
  exact {
    __ := h
    handedOver := by simpa only [length_set] using h.handedOver
    inBatch := by simpa only [length_set] using h.inBatch
    parallel := fun _ => h.parallel (ne_nil_of_length_pos (by omega))
    holds := by
      intro other slot hslot
      by_cases heq : place = other
      · subst heq
        cases hself.symm.trans hslot; exact ⟨h.holds place _ hwaiting, rfl⟩
      · exact h.holds other slot ((getElem?_set_ne heq).symm.trans hslot)
    collected := by
      intro other hother hslot
      by_cases heq : place = other
      · subst heq
        cases hself.symm.trans hslot
      · exact h.collected other hother ((getElem?_set_ne heq).symm.trans hslot)
    nodup := by
      -- a waiting slot has not been run: only a finished one counts as done
      refine Nodup.append h.nodup (nodup_singleton _) ?_
      rw [disjoint_singleton]
      intro hmem
      obtain ⟨-, -, hlt | ⟨other, value, heq, hslot⟩⟩ := (h.executed _).mp hmem
      · omega
      · obtain rfl : place = other := by omega
        cases hwaiting.symm.trans hslot
    executed := by
      intro index
      rw [mem_append, mem_singleton, h.executed]
      constructor
      · rintro (⟨hin, haccepted, hlt | ⟨other, value, rfl, hslot⟩⟩ | rfl)
        · exact ⟨hin, haccepted, .inl hlt⟩
        · refine ⟨hin, haccepted, .inr ⟨other, value, rfl, ?_⟩⟩
          have hne : place ≠ other := by
            rintro rfl
            cases hwaiting.symm.trans hslot
          exact (getElem?_set_ne hne).trans hslot
        · exact ⟨hcount, .inr (h.holds place _ hwaiting), .inr ⟨place, _, rfl, hself⟩⟩
      · rintro ⟨hin, haccepted, hlt | ⟨other, value, rfl, hslot⟩⟩
        · exact .inl ⟨hin, haccepted, .inl hlt⟩
        · by_cases heq : place = other
          · subst heq; exact .inr rfl
          · exact .inl ⟨hin, haccepted,
              .inr ⟨other, value, rfl, (getElem?_set_ne heq).symm.trans hslot⟩⟩ }

theorem Inv.collect (hfull : m.slots.length = job.size m.first)
    (hslot : m.slots[m.results.length - m.first]? = some slot) (hvalue : slot.value = some value) :
    job.Inv { m with results := m.results ++ [value] } := by
  have hplace := (h.size_lt hslot).1
  have hcount : m.first < job.count := by
    have : 0 < job.size m.first := by omega
    unfold size at this; omega
  have hend := job.add_size_le hcount
  have hpast := h.past
  have hnext : m.first + (m.results.length - m.first) = m.results.length := by omega
  have hholds := h.holds _ _ hslot
  have hbatch := h.batchSize_ne hslot
  rw [hnext] at hholds hbatch
  have hlength : (m.results ++ [value]).length = m.results.length + 1 := by simp
  exact {
    __ := h
    past := by dsimp only; omega
    handedOver := by dsimp only; omega
    inCount := by dsimp only; omega
    collected := by
      intro place hlt hwaiting
      dsimp only at hlt hwaiting
      rcases lt_or_ge (m.first + place) m.results.length with hbefore | hat
      · exact h.collected place hbefore hwaiting
      · -- the slot just collected had a value
        obtain rfl : place = m.results.length - m.first := by omega
        cases hslot.symm.trans hwaiting; cases hvalue
    results := job.results_append h.results (hholds.outcome hbatch hvalue)
    executed := h.executed }

theorem Inv.next (hdone : m.results.length = m.first + job.size m.first) :
    job.Inv { m with first := m.first + job.width, slots := [] } := by
  have hreach := job.add_size_eq m.first
  have hwidth := job.size_le_width m.first
  have hfull : m.slots.length = job.size m.first := by
    have := h.handedOver
    have := h.inBatch; omega
  -- every slot of the batch was collected, so an accepted piece of it has been run
  have hfinished : ∀ place, place < job.size m.first → job.Accepted (m.first + place) →
      ∃ value, m.slots[place]? = some (.finished value) := by
    intro place hplace haccepted
    have hslot : m.slots[place]? = some (m.slots[place]) := getElem?_eq_getElem _
    have hholds := h.holds place _ hslot
    have hnone : job.refusal (m.first + place) = none :=
      haccepted.resolve_left (h.batchSize_ne hslot)
    cases hcase : m.slots[place] with
    | waiting => exact absurd (hslot.trans (congrArg some hcase)) (h.collected place (by omega))
    | finished value => exact ⟨value, hslot.trans (congrArg some hcase)⟩
    | refused =>
      rw [hcase] at hholds
      cases hnone.symm.trans hholds
  exact {
    __ := h
    aligned := Nat.dvd_add h.aligned (Nat.dvd_refl _)
    past := by dsimp only; omega
    handedOver := by dsimp only [length_nil]; omega
    inBatch := zero_le _
    parallel := fun hne => absurd rfl hne
    holds := by simp
    collected := by simp
    executed := by
      intro index
      rw [h.executed]
      refine and_congr_right fun hin => and_congr_right fun haccepted => ⟨?_, ?_⟩
      · rintro (hlt | ⟨place, value, rfl, hslot⟩)
        · exact .inl (by dsimp only; omega)
        · have := h.size_lt hslot; exact .inl (by dsimp only; omega)
      · rintro (hlt | ⟨place, value, -, hslot⟩)
        · dsimp only at hlt
          rcases lt_or_ge index m.first with hbefore | hbatch
          · exact .inl hbefore
          · obtain ⟨place, rfl⟩ := Nat.exists_eq_add_of_le hbatch
            obtain ⟨value, hslot⟩ := hfinished place (by omega) haccepted
            exact .inr ⟨place, value, rfl, hslot⟩
        · cases hslot }

theorem Inv.step {m' : Machine β} (hstep : job.Step m m') : job.Inv m' := by
  cases hstep with
  | inline hsize => exact h.inline hsize
  | submit hsize hroom => exact h.submit hsize hroom
  | work _ hwaiting => exact h.work hwaiting
  | collect hfull hslot hvalue => exact h.collect hfull hslot hvalue
  | next _ _ hdone => exact h.next hdone

end

theorem Reachable.inv (h : job.Reachable m) : job.Inv m := by
  induction h with
  | refl => exact job.inv_start
  | tail _ hstep ih => exact ih.step hstep

/-! ## 3. Every schedule ends, with the outcomes in order -/

theorem Reachable.results_of_finished (h : job.Reachable m) (hfinished : job.Finished m) :
    m.results = (range job.count).map job.outcome := by
  have hpast := h.inv.past
  have hcount := h.inv.inCount
  unfold Finished at hfinished
  obtain heq : m.results.length = job.count := by omega
  rw [← heq]; exact h.inv.results

theorem Reachable.executed_of_finished (h : job.Reachable m) (hfinished : job.Finished m) :
    m.executed.Nodup ∧ ∀ index, index ∈ m.executed ↔ index < job.count ∧ job.Accepted index := by
  refine ⟨h.inv.nodup, fun index => ?_⟩
  rw [h.inv.executed]
  unfold Finished at hfinished
  refine and_congr_right fun hin => and_iff_left (.inl (by omega))

theorem Reachable.progress (h : job.Reachable m) (hmore : ¬ job.Finished m) :
    ∃ m', job.Step m m' := by
  have hinv := h.inv
  have hcount : m.first < job.count := Nat.lt_of_not_le hmore
  by_cases hsize : job.size m.first = 1
  · exact ⟨_, .inline hsize⟩
  · rcases lt_or_ge m.slots.length (job.size m.first) with hroom | hfull
    · exact ⟨_, .submit hsize hroom⟩
    · have hfull : m.slots.length = job.size m.first := le_antisymm hinv.inBatch hfull
      by_cases hdone : m.results.length = m.first + job.size m.first
      · exact ⟨_, .next hsize hcount hdone⟩
      · have hplace : m.results.length - m.first < m.slots.length := by
          have := hinv.past
          have := hinv.handedOver; omega
        have hslot := getElem?_eq_getElem hplace
        cases hcase : m.slots[m.results.length - m.first] with
        | waiting => exact ⟨_, .work _ (hslot.trans (congrArg some hcase))⟩
        | finished | refused => exact ⟨_, .collect hfull (hslot.trans (congrArg some hcase)) rfl⟩

/-- Moves left at most: two for a piece to be handed over, one for a piece waiting, one for a result
    to be collected and one for each batch. -/
def remaining (job : Job β) (m : Machine β) : Nat :=
  2 * (job.count - (m.first + m.slots.length)) + m.slots.countP Slot.isWaiting
    + (job.count - m.results.length) + (job.count - m.first)

theorem Inv.remaining_lt {m' : Machine β} (h : job.Inv m) (hstep : job.Step m m') :
    job.remaining m' < job.remaining m := by
  have hbatch := h.inBatch
  unfold remaining
  cases hstep with
  | inline hsize =>
    have hmore : m.first < job.count := by unfold size at hsize; omega
    have := job.width_pos (by omega)
    simp only [length_append, length_nil, countP_nil]
    omega
  | submit hsize hroom =>
    have : [job.slot (m.first + m.slots.length)].countP Slot.isWaiting ≤ 1 :=
      countP_le_length
    have hmore : m.first < job.count := by unfold size at hroom; omega
    have := job.add_size_le hmore
    simp only [length_append, length_singleton, countP_append]; omega
  | work place hwaiting =>
    obtain ⟨hplace, hslot⟩ := List.getElem?_eq_some_iff.mp hwaiting
    have hpositive : 0 < m.slots.countP Slot.isWaiting :=
      countP_pos_iff.mpr ⟨_, getElem_mem hplace, by rw [hslot]; rfl⟩
    simp only [length_set]
    rw [countP_set hplace, hslot]
    simp only [Slot.isWaiting, if_true, Bool.false_eq_true, if_false]; omega
  | collect hfull hslot =>
    have hplace := (h.size_lt hslot).1
    have hmore : m.first < job.count := by
      have : 0 < job.size m.first := by omega
      unfold size at this; omega
    have := job.add_size_le hmore
    simp only [length_append, length_singleton]; omega
  | next =>
    have := job.width_pos (by omega)
    have := job.size_le_width m.first
    simp only [length_nil, countP_nil]; omega

theorem Reachable.terminates (h : job.Reachable m) : Acc (fun m' m => job.Step m m') m := by
  induction hleft : job.remaining m using Nat.strongRecOn generalizing m with
  | ind left ih =>
    refine ⟨_, fun m' hstep => ?_⟩
    exact ih _ (hleft ▸ h.inv.remaining_lt hstep) (h.tail hstep) rfl

end Job

end ForkJoin
