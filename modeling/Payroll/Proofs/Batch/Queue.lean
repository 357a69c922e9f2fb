/-
How a batch sorts its requests before the run. The employees of the
queue are those who occur once, each of them once; the errors that the
run begins with are those of the employees who occur more often. So
every employee stands on exactly one side, and a place in the queue
belongs to one employee.
-/
import Payroll.Batch.Machine
import Payroll.Proofs.Entries
import Mathlib.Data.List.Nodup

namespace Payroll.Batch

variable {requests : List Request} {id : String}

/-- The employees of a list of requests. -/
abbrev employees (l : List Request) : List String :=
  l.map (·.employeeId)

theorem mem_employees_iff {l : List Request} :
    id ∈ employees l ↔ ∃ r ∈ l, r.employeeId = id :=
  List.mem_map

theorem mem_employees {l : List Request} {r : Request} (h : r ∈ l) :
    r.employeeId ∈ employees l :=
  List.mem_map_of_mem h

theorem count_employees :
    (employees requests).count id = occurrences requests id := by
  rw [List.count_eq_countP, List.countP_map]
  rfl

theorem mem_employees_iff_occurs :
    id ∈ employees requests ↔ 0 < occurrences requests id := by
  rw [← count_employees, List.count_pos_iff]

theorem mem_queue {r : Request} :
    r ∈ queue requests
      ↔ r ∈ requests ∧ occurrences requests r.employeeId = 1 := by
  rw [queue, List.mem_filter, beq_iff_eq]

/-- The queue holds the employees who occur once. -/
theorem mem_employees_queue :
    id ∈ employees (queue requests) ↔ occurrences requests id = 1 := by
  rw [mem_employees_iff]
  constructor
  · rintro ⟨r, hr, rfl⟩
    exact (mem_queue.1 hr).2
  · intro honce
    have hmem : id ∈ employees requests := by
      rw [mem_employees_iff_occurs]
      omega
    obtain ⟨r, hr, rfl⟩ := mem_employees_iff.1 hmem
    exact ⟨r, mem_queue.2 ⟨hr, honce⟩, rfl⟩

/-- No employee is in the queue twice. -/
theorem employees_queue_nodup (requests : List Request) :
    (employees (queue requests)).Nodup := by
  rw [List.nodup_iff_count_le_one]
  intro id
  by_cases hmem : id ∈ employees (queue requests)
  · have hsub : (employees (queue requests)).Sublist (employees requests) :=
      List.filter_sublist.map _
    calc (employees (queue requests)).count id
        ≤ (employees requests).count id := hsub.count_le id
      _ = occurrences requests id := count_employees
      _ = 1 := mem_employees_queue.1 hmem
      _ ≤ 1 := Nat.le_refl 1
  · rw [List.count_eq_zero.2 hmem]
    exact Nat.zero_le 1

/-- Requests of the queue are told apart by their employees. -/
theorem eq_of_employeeId_eq {r r' : Request} (hr : r ∈ queue requests)
    (hr' : r' ∈ queue requests) (heq : r.employeeId = r'.employeeId) :
    r = r' :=
  List.inj_on_of_nodup_map (employees_queue_nodup requests) hr hr' heq

/-- An employee of the queue waits before a place in it, or behind. -/
theorem mem_employees_take_or_drop {k : Nat} :
    id ∈ employees (queue requests)
      ↔ id ∈ employees ((queue requests).take k)
        ∨ id ∈ employees ((queue requests).drop k) := by
  rw [← List.mem_append, employees, ← List.map_append,
    List.take_append_drop]

theorem not_mem_drop_of_mem_take {k : Nat}
    (h : id ∈ employees ((queue requests).take k)) :
    id ∉ employees ((queue requests).drop k) := by
  have hnodup := employees_queue_nodup requests
  rw [employees, ← List.take_append_drop k (queue requests),
    List.map_append] at hnodup
  exact List.disjoint_of_nodup_append hnodup h

theorem occurs_once_of_mem_take {k : Nat}
    (h : id ∈ employees ((queue requests).take k)) :
    occurrences requests id = 1 :=
  mem_employees_queue.1 (mem_employees_take_or_drop.2 (.inl h))

/-- A batch begins with one error for everybody who occurs more than
once. -/
theorem get?_duplicates (requests : List Request) (id : String) :
    (duplicates requests).get? id
      = if 1 < occurrences requests id then some (.duplicateRequest id)
        else none := by
  have hfold : duplicates requests
      = (employees (requests.filter
          fun r => occurrences requests r.employeeId != 1)).foldl
        (fun m n => m.insert n (.duplicateRequest n)) .empty := by
    rw [duplicates, Named.ofList, List.foldl_map, employees, List.foldl_map]
  have hmem : id ∈ employees (requests.filter
        fun r => occurrences requests r.employeeId != 1)
      ↔ 1 < occurrences requests id := by
    rw [mem_employees_iff]
    constructor
    · rintro ⟨r, hr, rfl⟩
      rw [List.mem_filter, bne_iff_ne] at hr
      have hpos := mem_employees_iff_occurs.1 (mem_employees hr.1)
      omega
    · intro hmore
      have hid : id ∈ employees requests := by
        rw [mem_employees_iff_occurs]
        omega
      obtain ⟨r, hr, rfl⟩ := mem_employees_iff.1 hid
      refine ⟨r, List.mem_filter.2 ⟨hr, ?_⟩, rfl⟩
      rw [bne_iff_ne]
      omega
  rw [hfold, Named.get?_foldl_insert, Named.get?_empty]
  simp only [hmem]

end Payroll.Batch
