import Mathlib.Data.List.Range
import DeviceDriverTest.FifoDriver

/-! The streaming program of the display. It fills and queues as many buffers as
it asked for, then keeps waiting for a batch of buffers and filling them again. -/

namespace DeviceDriverTest

namespace VideoStreaming

open FifoDriver

/-- The number of buffers asked for, as `main` lets it through. -/
def Requested : Type := { count : Nat // 2 ≤ count }

def bufCount (argument : Option Int) : Option Requested :=
  let n := argument.getD 2
  if h : n ≤ 1 then none else some ⟨n.toNat, by omega⟩

/-- The fills of the buffers still to come, and the buffer at which the file
ended; buffer `i` gets frame `i` of the file. -/
def prefill (frames : Nat) : List Nat → List Use × Option Nat
  | [] => ([], none)
  | i :: rest =>
    if i < frames then
      let (uses, readCount) := prefill frames rest
      (.fill i :: .qbuf i :: uses, readCount)
    else ([.fill i], some i)

/-- The second loop over `k`, with the frame it reads next, and whether it has
left for the exit. -/
def refill (granted frames : Nat) : Nat → Nat → Nat → List Use × Bool
  | 0, _, _ => ([], false)
  | k + 1, count, frame =>
    let bpos := count % granted
    if frame < frames then
      let (uses, done) := refill granted frames k (count + 1) (frame + 1)
      (.fill bpos :: .qbuf bpos :: uses, done)
    else ([.fill bpos], true)

def streamLoop (granted frames readCount : Nat) : Nat → Nat → Nat → List Use
  | 0, _, _ => []
  | fuel + 1, count, frame =>
    if count < 2000 then
      let (uses, done) := refill granted frames (readCount - 1) count frame
      List.replicate (readCount - 1) .dqbuf ++
        if done then uses
        else uses ++ streamLoop granted frames readCount fuel (count + (readCount - 1)) (frame + (readCount - 1))
    else [.dqbuf]

def streamingVideo (requested granted frames fuel : Nat) : List Use :=
  let (uses, readCount) := prefill frames (List.range requested)
  match readCount with
  | none => uses ++ streamLoop granted frames granted fuel granted requested
  | some readCount =>
    if readCount ≤ 2 then uses
    else uses ++ streamLoop granted frames readCount fuel readCount readCount

/-- However long it runs, the program keeps to the buffers that are its own. -/
def QueueDiscipline (requested : Requested) (granted frames : Nat) : Prop :=
  ∀ fuel, Disciplined granted [] (streamingVideo requested.val granted frames fuel)

def fills (n : Nat) : List Use := (List.range n).flatMap fun i => [.fill i, .qbuf i]

theorem prefill_range' {frames start : Nat} (n : Nat) (h : start ≤ frames) :
    prefill frames (List.range' start n) =
      if start + n ≤ frames then ((List.range' start n).flatMap fun i => [.fill i, .qbuf i], none)
      else ((List.range' start (frames - start)).flatMap (fun i => [.fill i, .qbuf i]) ++ [.fill frames],
        some frames) := by
  induction n generalizing start with
  | zero => rw [if_pos (by omega)]; rfl
  | succ n ih =>
    rw [List.range'_succ, prefill]
    by_cases hlt : start < frames
    · rw [if_pos hlt, ih hlt]
      by_cases hfit : start + (n + 1) ≤ frames
      · rw [if_pos (by omega), if_pos hfit]
        rfl
      · have hleft : frames - start = (frames - (start + 1)) + 1 := by omega
        rw [if_neg (by omega), if_neg hfit, hleft, List.range'_succ]
        rfl
    · have hend : start = frames := by omega
      rw [if_neg hlt, if_neg (by omega), hend, Nat.sub_self]
      rfl

theorem prefill_range (frames n : Nat) :
    prefill frames (List.range n) =
      if n ≤ frames then (fills n, none) else (fills frames ++ [.fill frames], some frames) := by
  have h := prefill_range' n (Nat.zero_le frames)
  rw [Nat.zero_add, Nat.sub_zero] at h
  rw [List.range_eq_range', h, fills, fills, List.range_eq_range', List.range_eq_range']

section Refill

variable {granted low count : Nat} {queue : List Nat}

/-- As long as the count stays within one turn of what the driver holds, the
buffers filled are free. -/
theorem refill_disciplined (frames k frame : Nat) (hgranted : 0 < granted)
    (h : Recent granted low count queue) (hle : low ≤ count) (hroom : count + k ≤ low + granted) :
    Disciplined granted queue (refill granted frames k count frame).1 ∧
      ((refill granted frames k count frame).2 = false →
        (refill granted frames k count frame).1.foldl next queue =
          queue ++ (List.range' count k).map (· % granted)) := by
  induction k generalizing count frame queue with
  | zero => exact ⟨trivial, fun _ => (List.append_nil queue).symm⟩
  | succ k ih =>
    have hfree := h.free (by omega)
    have hin := Nat.mod_lt count hgranted
    by_cases hread : frame < frames
    · obtain ⟨hrest, hqueue⟩ := ih (frame + 1) (h.queued hle) (by omega) (by omega)
      simp only [refill, if_pos hread]
      refine ⟨disciplined_refill.mpr ⟨⟨hin, hfree⟩, hrest⟩, fun hdone => ?_⟩
      rw [List.range'_succ, List.map_cons, List.append_cons]
      exact hqueue hdone
    · simp only [refill, if_neg hread]
      exact ⟨⟨⟨hin, hfree⟩, trivial⟩, fun hdone => absurd hdone (by decide)⟩

end Refill

section Rounds

variable {requested granted frames count : Nat} {queue : List Nat}

/-- At the head of the main loop: all the buffers asked for are queued, and a
buffer that a round leaves with the driver is the one queued last. -/
structure Rolling (requested granted count : Nat) (queue : List Nat) : Prop where
  positive : 1 ≤ count
  length : queue.length = requested
  left : ∀ i ∈ queue.drop (granted - 1), i = (count - 1) % granted

theorem Rolling.recent (h : Rolling requested granted count queue) :
    Recent granted (count - 1) count (queue.drop (granted - 1)) := by
  have hpos := h.positive
  exact fun i hi => ⟨count - 1, le_rfl, by omega, h.left i hi⟩

theorem Rolling.round (h : Rolling requested granted count queue) (hreq : 2 ≤ requested)
    (hle : requested ≤ granted) (hmany : granted ≤ requested + 1) :
    Rolling requested granted (count + (granted - 1))
      (queue.drop (granted - 1) ++ (List.range' count (granted - 1)).map (· % granted)) := by
  have hlen := h.length
  have hpos := h.positive
  refine ⟨by omega, by simp; omega, fun i hi => ?_⟩
  obtain ⟨j, hj, heq⟩ := List.mem_drop_iff_getElem.mp hi
  simp only [List.length_append, List.length_drop, List.length_map, List.length_range'] at hj
  -- the only place left is the last one, and only when the counts are equal
  have hlast : (queue.drop (granted - 1)).length ≤ granted - 1 + j := by
    rw [List.length_drop]
    omega
  rw [List.getElem_append_right hlast, List.getElem_map, List.getElem_range'] at heq
  simp only [List.length_drop] at heq
  rw [← heq]
  congr 1
  omega

/-- From 2000 on there is one wait left, for which something must be queued. -/
theorem streamLoop_over {readCount : Nat} (hcount : 2000 ≤ count) (hqueue : 0 < queue.length) (fuel frame : Nat) :
    Disciplined granted queue (streamLoop granted frames readCount fuel count frame) := by
  cases fuel with
  | zero => trivial
  | succ fuel =>
    rw [streamLoop, if_neg (by omega)]
    exact ⟨List.ne_nil_of_length_pos hqueue, trivial⟩

/-- A round that begins in rolling order keeps to it, or leaves for the exit. -/
theorem streamLoop_disciplined (hreq : 2 ≤ requested) (hle : requested ≤ granted)
    (hmany : granted ≤ requested + 1) (h : Rolling requested granted count queue) (fuel frame : Nat) :
    Disciplined granted queue (streamLoop granted frames granted fuel count frame) := by
  induction fuel generalizing count frame queue with
  | zero => trivial
  | succ fuel ih =>
    have hlen := h.length
    have hpos := h.positive
    by_cases hcount : count < 2000
    · have hwait : Disciplined granted queue (List.replicate (granted - 1) .dqbuf) :=
        (disciplined_dqbufs _ queue).mpr (by omega)
      obtain ⟨hfill, hqueue⟩ := refill_disciplined frames (granted - 1) frame (by omega) h.recent
        (by omega) (by omega)
      simp only [streamLoop, if_pos hcount]
      refine disciplined_append.mpr ⟨hwait, ?_⟩
      rw [foldl_dqbufs]
      cases hdone : (refill granted frames (granted - 1) count frame).2 with
      | true => exact hfill
      | false =>
        refine disciplined_append.mpr ⟨hfill, ?_⟩
        rw [hqueue hdone]
        exact ih (h.round hreq hle hmany) _
    · exact streamLoop_over (by omega) (by omega) (fuel + 1) frame

/-- The file ends among the first buffers: one batch comes back, and the next
buffer to fill is the one at which the file ended. -/
theorem streamLoop_short {readCount : Nat} (hread : 2 < readCount) (hlt : readCount < granted) (fuel : Nat) :
    Disciplined granted (List.range readCount) (streamLoop granted readCount readCount fuel readCount readCount) := by
  cases fuel with
  | zero => trivial
  | succ fuel =>
    by_cases hcount : readCount < 2000
    · have hwait : Disciplined granted (List.range readCount) (List.replicate (readCount - 1) .dqbuf) :=
        (disciplined_dqbufs _ _).mpr (by simp)
      have hrecent : Recent granted 0 readCount ((List.range readCount).drop (readCount - 1)) := by
        intro i hi
        have hi : i < readCount := List.mem_range.mp (List.mem_of_mem_drop hi)
        exact ⟨i, Nat.zero_le i, hi, (Nat.mod_eq_of_lt (by omega)).symm⟩
      obtain ⟨k, hk⟩ : ∃ k, readCount - 1 = k + 1 := ⟨readCount - 2, by omega⟩
      have hdone : (refill granted readCount (readCount - 1) readCount readCount) =
          ([.fill (readCount % granted)], true) := by
        rw [hk, refill, if_neg (Nat.lt_irrefl _)]
      simp only [streamLoop, if_pos hcount, hdone]
      refine disciplined_append.mpr ⟨hwait, ?_⟩
      rw [foldl_dqbufs]
      exact ⟨⟨Nat.mod_lt _ (by omega), hrecent.free (by omega)⟩, trivial⟩
    · exact streamLoop_over (by omega) (by rw [List.length_range]; omega) (fuel + 1) readCount

theorem rolling_start (hreq : 2 ≤ requested) (hle : requested ≤ granted) (hmany : granted ≤ requested + 1) :
    Rolling requested granted granted (List.range requested) := by
  refine ⟨by omega, List.length_range, fun i hi => ?_⟩
  obtain ⟨j, hj, heq⟩ := List.mem_drop_iff_getElem.mp hi
  rw [List.length_range] at hj
  rw [List.getElem_range] at heq
  rw [← heq, Nat.mod_eq_of_lt (by omega)]
  omega

end Rounds

section Program

variable {granted frames : Nat}

theorem streamingVideo_full {requested : Nat} (h : requested ≤ frames) (fuel : Nat) :
    streamingVideo requested granted frames fuel =
      fills requested ++ streamLoop granted frames granted fuel granted requested := by
  simp only [streamingVideo, prefill_range, if_pos h]

theorem streamingVideo_short {requested : Nat} (h : frames < requested) (fuel : Nat) :
    streamingVideo requested granted frames fuel =
      fills frames ++ .fill frames ::
        if frames ≤ 2 then [] else streamLoop granted frames frames fuel frames frames := by
  have hshort : ¬ requested ≤ frames := by omega
  simp only [streamingVideo, prefill_range, if_neg hshort]
  by_cases htwo : frames ≤ 2
  · simp only [if_pos htwo]
  · simp only [if_neg htwo, List.append_assoc, List.singleton_append]

/-- With the file long enough, the first batch waits for all buffers granted but
one, of which only those asked for are queued. -/
theorem streamingVideo_full_iff {requested : Nat} (hreq : 2 ≤ requested) (hfull : requested ≤ frames) :
    (∀ fuel, Disciplined granted [] (streamingVideo requested granted frames fuel)) ↔
      requested ≤ granted ∧ (granted ≤ requested + 1 ∨ 2000 ≤ granted) := by
  have hprogram : ∀ fuel, Disciplined granted [] (streamingVideo requested granted frames fuel) ↔
      requested ≤ granted ∧ Disciplined granted (List.range requested)
        (streamLoop granted frames granted fuel granted requested) := by
    intro fuel
    rw [streamingVideo_full hfull, disciplined_append, fills, disciplined_fills, foldl_fills]
  simp only [hprogram]
  constructor
  · intro hall
    refine ⟨(hall 0).1, ?_⟩
    by_contra hmany
    have hfirst := (hall 1).2
    rw [streamLoop, if_pos (by omega)] at hfirst
    have hwait := (disciplined_dqbufs _ _).mp (disciplined_append.mp hfirst).1
    rw [List.length_range] at hwait
    omega
  · rintro ⟨hle, hmany | hmany⟩ fuel
    · exact ⟨hle, streamLoop_disciplined hreq hle hmany (rolling_start hreq hle hmany) fuel requested⟩
    · exact ⟨hle, streamLoop_over hmany (by rw [List.length_range]; omega) fuel requested⟩

theorem streamingVideo_short_iff {requested : Nat} (hshort : frames < requested) :
    (∀ fuel, Disciplined granted [] (streamingVideo requested granted frames fuel)) ↔ frames < granted := by
  have hfree : frames ∉ List.range frames := by simp
  have hprogram : ∀ fuel, Disciplined granted [] (streamingVideo requested granted frames fuel) ↔
      frames ≤ granted ∧ (frames < granted ∧ frames ∉ List.range frames) ∧ Disciplined granted (List.range frames)
        (if frames ≤ 2 then [] else streamLoop granted frames frames fuel frames frames) := by
    intro fuel
    rw [streamingVideo_short hshort, disciplined_append, fills, disciplined_fills, foldl_fills]
    rfl
  simp only [hprogram]
  constructor
  · exact fun hall => (hall 0).2.1.1
  · intro hlt fuel
    refine ⟨hlt.le, ⟨hlt, hfree⟩, ?_⟩
    by_cases htwo : frames ≤ 2
    · rw [if_pos htwo]
      trivial
    · rw [if_neg htwo]
      exact streamLoop_short (by omega) hlt fuel

/-- The program keeps to its own buffers exactly when the file ends before the
buffers asked for and those granted, or when both are there in full and the
driver grants at most one more than asked for, or so many that the main loop
does not begin. -/
theorem queueDiscipline_iff (requested : Requested) (granted frames : Nat) :
    QueueDiscipline requested granted frames ↔
      (frames < requested.val ∧ frames < granted) ∨
        requested.val ≤ frames ∧ requested.val ≤ granted ∧ (granted ≤ requested.val + 1 ∨ 2000 ≤ granted) := by
  rw [QueueDiscipline]
  by_cases hfull : requested.val ≤ frames
  · have hnot : ¬ (frames < requested.val ∧ frames < granted) := fun hshort => by omega
    rw [streamingVideo_full_iff requested.property hfull, or_iff_right hnot, and_iff_right hfull]
  · have hshort : frames < requested.val := by omega
    have hnot : ¬ (requested.val ≤ frames ∧ requested.val ≤ granted ∧
        (granted ≤ requested.val + 1 ∨ 2000 ≤ granted)) := fun hlong => hfull hlong.1
    rw [streamingVideo_short_iff hshort, or_iff_left hnot, and_iff_right hshort]

end Program

/-- Two buffers asked for and four granted: the first batch waits for three. -/
theorem four_granted_for_two : ¬ QueueDiscipline ⟨2, le_rfl⟩ 4 100 := by
  intro hall
  have hfirst := hall 1
  rw [streamingVideo_full (by decide), disciplined_append, fills, foldl_fills] at hfirst
  simp only [streamLoop] at hfirst
  rw [if_pos (by decide)] at hfirst
  have hwait := (disciplined_dqbufs _ _).mp (disciplined_append.mp hfirst.2).1
  rw [List.length_range] at hwait
  omega

end VideoStreaming

end DeviceDriverTest
