import Mathlib

/-!
# Threads that write in any order

Each thread takes its steps in order, and the steps of different threads come in any
order. Whatever the order is, the steps taken are those of the threads; and where no
two writes go to one place, the order does not show in what they leave.
-/

namespace NcclExts.Foundation

variable {α β : Type}

/-- The orders in which threads take all of their steps. -/
inductive Interleaving : List (List α) → List α → Prop
  | done {threads : List (List α)} (ended : ∀ thread ∈ threads, thread = []) :
      Interleaving threads []
  | step {before after : List (List α)} {first : α} {rest order : List α}
      (later : Interleaving (before ++ rest :: after) order) :
      Interleaving (before ++ (first :: rest) :: after) (first :: order)

namespace Interleaving

/-- The steps taken are those of the threads. -/
theorem perm {threads : List (List α)} {order : List α} (runs : Interleaving threads order) :
    order.Perm threads.flatten := by
  induction runs with
  | done ended =>
    rw [List.flatten_eq_nil_iff.mpr ended]
  | @step before after first rest order _ ih =>
    refine (ih.cons first).trans ?_
    simp only [List.flatten_append, List.flatten_cons]
    exact List.perm_middle.symm

/-- A thread without steps changes nothing. -/
theorem idle {threads : List (List α)} {order : List α} (runs : Interleaving threads order) :
    Interleaving ([] :: threads) order := by
  induction runs with
  | done ended =>
    refine .done fun thread member => ?_
    rcases List.mem_cons.mp member with rfl | later
    · rfl
    · exact ended thread later
  | @step before after first rest order _ ih => exact @step _ ([] :: before) _ _ _ _ ih

/-- The threads can run one after the other. -/
theorem sequential (threads : List (List α)) : Interleaving threads threads.flatten := by
  induction threads with
  | nil => exact .done (by simp)
  | cons thread threads ih =>
    induction thread with
    | nil => exact idle ih
    | cons first rest ihRest => exact @step _ [] _ _ _ _ ihRest

end Interleaving

section

variable [DecidableEq α]

/-- What writes leave in a memory, one after the other. -/
def writeAll (memory : α → β) (writes : List (α × β)) : α → β :=
  writes.foldl (fun memory write => Function.update memory write.1 write.2) memory

@[simp] theorem writeAll_nil (memory : α → β) : writeAll memory [] = memory := rfl

theorem writeAll_append (memory : α → β) (first later : List (α × β)) :
    writeAll memory (first ++ later) = writeAll (writeAll memory first) later :=
  List.foldl_append

/-- A place that is not written keeps what it holds. -/
theorem writeAll_of_notMem {memory : α → β} {writes : List (α × β)} {place : α}
    (unwritten : place ∉ writes.map Prod.fst) : writeAll memory writes place = memory place := by
  induction writes generalizing memory with
  | nil => rfl
  | cons write writes ih =>
    rw [List.map_cons, List.mem_cons, not_or] at unwritten
    refine (ih unwritten.2).trans ?_
    exact Function.update_of_ne unwritten.1 _ _

/-- A place that is written once holds what was written. -/
theorem writeAll_of_mem {memory : α → β} {writes : List (α × β)}
    (distinct : (writes.map Prod.fst).Nodup) {write : α × β} (member : write ∈ writes) :
    writeAll memory writes write.1 = write.2 := by
  induction writes generalizing memory with
  | nil => simp at member
  | cons first writes ih =>
    obtain ⟨notLater, laterDistinct⟩ := List.nodup_cons.mp distinct
    rcases List.mem_cons.mp member with rfl | later
    · refine (writeAll_of_notMem notLater).trans ?_
      exact Function.update_self _ _ _
    · exact ih laterDistinct later

/-- Writes to different places come in any order. -/
theorem writeAll_perm {memory : α → β} {writes other : List (α × β)}
    (same : writes.Perm other) (distinct : (writes.map Prod.fst).Nodup) :
    writeAll memory writes = writeAll memory other := by
  have distinct' : (other.map Prod.fst).Nodup := (same.map Prod.fst).nodup_iff.mp distinct
  funext place
  by_cases written : place ∈ writes.map Prod.fst
  · obtain ⟨write, member, rfl⟩ := List.mem_map.mp written
    rw [writeAll_of_mem distinct member, writeAll_of_mem distinct' (same.mem_iff.mp member)]
  · have unwritten : place ∉ other.map Prod.fst :=
      fun member => written ((same.map Prod.fst).mem_iff.mpr member)
    rw [writeAll_of_notMem written, writeAll_of_notMem unwritten]

end

end NcclExts.Foundation
