/-
  The tasks of the archiver when it runs once (core/node/rpc/archiver.go).

  Senders that wait for room in the channel of tasks count as being in it. Calls of `ArchiveStream`
  are those of River.Node.Rpc.Archiver; here one returns at any time and with any result.
-/

import River.Contracts.Space
import River.Lib.Machine

namespace River.Node

open River.Lib List
open River.Contracts (Bytes32)

structure ArchiverTasks where
  streams : List Bytes32
  tasks : List Bytes32
  /-- Timers of `time.AfterFunc` that have not fired. -/
  timers : List Bytes32
  /-- The streams that are locked by a worker. -/
  workers : List Bytes32
  tasksWG : Int
  deriving DecidableEq

inductive ArchiverTask where
  /-- A stream of a page of the registry. -/
  | startImpl (streamId : Bytes32)
  /-- A worker takes the next task. -/
  | worker
  /-- A call returns; `empty` if it is because of a response without miniblocks. -/
  | archiveStream (streamId : Bytes32) (empty : Bool)
  | afterFunc (streamId : Bytes32)

namespace ArchiverTasks

def numWorkers : Nat := 20

variable (s : ArchiverTasks)

def addNewStream (streamId : Bytes32) : ArchiverTasks :=
  if streamId ∈ s.streams then s
  else { s with streams := streamId :: s.streams, tasks := s.tasks ++ [streamId] }

def reschedule (streamId : Bytes32) : ArchiverTasks :=
  { s with timers := s.timers ++ [streamId] }

def done : ArchiverTasks := { s with tasksWG := s.tasksWG - 1 }

def step : ArchiverTask → ArchiverTasks
  | .startImpl streamId =>
    if streamId = 0 then s
    else { s with tasksWG := s.tasksWG + 1 }.addNewStream streamId
  | .worker =>
    match s.tasks with
    | [] => s
    | streamId :: tasks =>
      if s.workers.length = numWorkers then s
      else if streamId ∉ s.streams then { s with tasks := tasks }
      else if streamId ∈ s.workers then ({ s with tasks := tasks }.reschedule streamId).done
      else { s with tasks := tasks, workers := streamId :: s.workers }
  | .archiveStream streamId empty =>
    if streamId ∉ s.workers then s
    else
      let s := { s with workers := s.workers.erase streamId }
      (if empty then s.reschedule streamId else s).done
  | .afterFunc streamId =>
    if streamId ∉ s.timers then s
    else { s with timers := s.timers.erase streamId, tasks := s.tasks ++ [streamId] }

end ArchiverTasks

/-- The archiver's tasks and workers. -/
def archiverTasks : Machine ArchiverTasks ArchiverTask Unit := ⟨fun s a => (s.step a, ())⟩

namespace ArchiverTasks

structure Balanced (s : ArchiverTasks) : Prop where
  tasksWG : ((s.tasks ++ s.workers).length : Int) ≤ s.tasksWG
  timers : s.timers = []
  nodup : (s.tasks ++ s.workers).Nodup
  loaded : ∀ streamId ∈ s.tasks ++ s.workers, streamId ∈ s.streams

variable {s : ArchiverTasks}

theorem Balanced.startImpl (h : s.Balanced) (sid : Bytes32) :
    (s.step (.startImpl sid)).Balanced := by
  simp only [step, addNewStream]
  split
  · exact h
  split
  · exact ⟨Int.le_add_one h.tasksWG, h.timers, h.nodup, h.loaded⟩
  next hnew =>
    -- the new task stands between those before and the workers
    have hperm : s.tasks ++ [sid] ++ s.workers ~ sid :: (s.tasks ++ s.workers) := by
      rw [append_assoc]
      exact perm_middle
    refine ⟨?_, h.timers, ?_, ?_⟩
    · rw [hperm.length_eq]
      exact Int.add_le_add_right h.tasksWG 1
    · exact hperm.nodup_iff.2 (nodup_cons.2 ⟨fun hmem => hnew (h.loaded _ hmem), h.nodup⟩)
    intro streamId' hmem
    rcases mem_cons.1 (hperm.mem_iff.1 hmem) with rfl | hmem
    · exact mem_cons_self
    · exact mem_cons_of_mem _ (h.loaded _ hmem)

theorem Balanced.worker (h : s.Balanced) : (s.step .worker).Balanced := by
  obtain ⟨hcount, htimers, hnodup, hloaded⟩ := h
  simp only [step]
  split
  · exact ⟨hcount, htimers, hnodup, hloaded⟩
  next sid tasks heq =>
    rw [heq] at hcount hnodup hloaded
    split
    · exact ⟨by rwa [heq], htimers, by rwa [heq], by rwa [heq]⟩
    rw [if_neg (not_not.2 (hloaded _ mem_cons_self))]
    -- the stream of a task that waits is not locked
    rw [cons_append, nodup_cons, mem_append, not_or] at hnodup
    rw [if_neg hnodup.1.2]
    have hperm : tasks ++ sid :: s.workers ~ sid :: tasks ++ s.workers := perm_middle
    refine ⟨by rwa [hperm.length_eq], htimers, hperm.nodup_iff.2 ?_, ?_⟩
    · rw [cons_append, nodup_cons, mem_append, not_or]
      exact hnodup
    · exact fun streamId' hmem => hloaded _ (hperm.mem_iff.1 hmem)

theorem Balanced.archiveStream (h : s.Balanced) (sid : Bytes32) :
    (s.step (.archiveStream sid false)).Balanced := by
  have hcount := h.tasksWG
  simp only [step]
  split
  · exact h
  next hmem =>
    have hsub : s.tasks ++ s.workers.erase sid <+ s.tasks ++ s.workers :=
      (Sublist.refl _).append erase_sublist
    refine ⟨?_, h.timers, h.nodup.sublist hsub, fun id hid => h.loaded id (hsub.mem hid)⟩
    have hlength := length_erase_add_one (not_not.1 hmem)
    rw [length_append] at hcount
    show ((s.tasks ++ s.workers.erase sid).length : Int) ≤ s.tasksWG - 1
    rw [length_append]
    omega

theorem Balanced.step (h : s.Balanced) {a : ArchiverTask}
    (ha : ∀ sid, a ≠ .archiveStream sid true) : (s.step a).Balanced := by
  cases a with
  | startImpl sid => exact h.startImpl sid
  | worker => exact h.worker
  | archiveStream sid empty =>
    cases empty with
    | true => exact absurd rfl (ha sid)
    | false => exact h.archiveStream sid
  | afterFunc sid =>
    rw [ArchiverTasks.step, if_pos (by simp [h.timers])]
    exact h

end ArchiverTasks

/-- **Tasks.** If no response is empty, then after every run of the archiver the counter is not
    negative, and no stream is scheduled when it is zero. -/
theorem tasksWG_counts (run : List ArchiverTask) (hrun : ∀ sid, .archiveStream sid true ∉ run) :
    let s := archiverTasks.exec ⟨[], [], [], [], 0⟩ run
    0 ≤ s.tasksWG ∧ (s.tasksWG = 0 → s.tasks = [] ∧ s.timers = [] ∧ s.workers = []) := by
  intro s
  have hbalanced : s.Balanced := by
    refine Machine.exec_invariant_along
      (fun _ _ h ha => h.step ha) ⟨by decide, rfl, nodup_nil, nofun⟩ (Machine.along_of_mem ?_ _)
    rintro a hmem sid rfl
    exact hrun sid hmem
  obtain ⟨_, htimers, -⟩ := hbalanced
  refine ⟨by omega, fun hzero => ?_⟩
  have hnil : s.tasks ++ s.workers = [] := eq_nil_of_length_eq_zero (by omega)
  rw [append_eq_nil_iff] at hnil
  exact ⟨hnil.1, htimers, hnil.2⟩

theorem tasksWG_counts_one :
    let s := archiverTasks.exec ⟨[], [], [], [], 0⟩ [.startImpl 7, .worker, .archiveStream 7 false]
    s.streams = [7] ∧ s.tasksWG = 0 ∧ s.tasks = [] ∧ s.timers = [] ∧ s.workers = [] :=
  ⟨by decide, by decide, (tasksWG_counts [.startImpl 7, .worker, .archiveStream 7 false]
    (by simp)).2 (by decide)⟩

/-- A node has no miniblocks yet: the counter is zero and the stream is scheduled. Its second call
    makes the counter negative. -/
theorem tasksWG_negative :
    archiverTasks.exec ⟨[], [], [], [], 0⟩ [.startImpl 7, .worker, .archiveStream 7 true] =
        ⟨[7], [], [7], [], 0⟩ ∧
      (archiverTasks.exec ⟨[7], [], [7], [], 0⟩
        [.afterFunc 7, .worker, .archiveStream 7 false]).tasksWG = -1 := by
  decide

end River.Node
