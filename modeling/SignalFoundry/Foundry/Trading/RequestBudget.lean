import SignalFoundry.Foundry.Trading.Artifacts
import SignalFoundry.Library.WindowLog

/-!
# The provider request budget

The journal keeps the times of recent requests under one key. Read with exact
times, it admits at most a hundred requests in every minute, and refuses one only
if its minute is full. A reopened journal has the same rows, so a restart is no
step of a run.
-/

namespace Foundry

namespace Trading

open Fallible Json WindowLog

namespace Journal

section Budget

variable [PyRuntime] [FloatText ℚ] {j j' : Journal} {times kept : List ℚ} {now : ℚ}

/-- The accepted times of a journal that started without any, whatever else is
done that leaves them alone. -/
inductive Requested : Journal → List ℚ → Prop
  | start {j : Journal} (fresh : Table.find StateRow.key "requests" j.state = none) :
      Requested j []
  | accepted {j j' : Journal} {times : List ℚ} {now : ℚ} (before : Requested j times)
      (answer : j.request now = (.ok (), j')) : Requested j' (times ++ [now])
  | refused {j j' : Journal} {times : List ℚ} {now : ℚ} {error : Raised}
      (before : Requested j times) (answer : j.request now = (.error error, j')) :
      Requested j' times
  | other {j : Journal} {times : List ℚ} {call : Call ℚ} (before : Requested j times)
      (keeps : call.Keeps "requests") : Requested (j.perform call).2 times

/-- The value under which the times are stored. -/
def timesValue (times : List ℚ) : Json ℚ := .arr (times.map .float)

/-- The row of the request times. -/
def Holds (j : Journal) (kept : List ℚ) : Prop :=
  (kept = [] ∧ Table.find StateRow.key "requests" j.state = none) ∨
    (kept ≠ [] ∧ (∃ payload, encode (timesValue kept) 16384 = .ok payload) ∧
      Table.find StateRow.key "requests" j.state = some (stateRow "requests" (timesValue kept)))

section Values

omit [PyRuntime] [FloatText ℚ]

theorem visit_timesValue (times : List ℚ) :
    visit 0 (timesValue times) =
      (0, timesValue times) :: times.map fun time => (1, Json.float time) := by
  have hitems : ∀ times : List ℚ, visitItems 1 (times.map Json.float) =
      times.map fun time => (1, Json.float time) := by
    intro times
    induction times with
    | nil => rfl
    | cons time times ih =>
        rw [List.map_cons, List.map_cons, visitItems, ih]
        simp [visit]
  rw [timesValue, visit, hitems]

theorem sorted_timesValue (times : List ℚ) : (timesValue times).sorted = timesValue times := by
  have hitems : sortedItems (times.map Json.float) = times.map Json.float := by
    induction times with
    | nil => rfl
    | cons time times ih => rw [List.map_cons, sortedItems, ih, sorted_float]
  rw [timesValue, sorted, hitems]

theorem uniqueKeys_timesValue (times : List ℚ) : UniqueKeys (timesValue times) := by
  intro v hv members hobj
  rw [visit_timesValue] at hv
  rcases List.mem_cons.mp hv with rfl | hv
  · cases hobj
  · obtain ⟨time, -, rfl⟩ := List.mem_map.mp hv
    cases hobj

theorem bounded_timesValue {times : List ℚ} (h : times.length ≤ 100) :
    Bounded (timesValue times) := by
  rw [Bounded, visit_timesValue]
  refine ⟨?_, fun v hv => ?_⟩
  · rw [List.length_cons, List.length_map]
    omega
  · rcases List.mem_cons.mp hv with rfl | hv
    · exact Nat.zero_le _
    · obtain ⟨time, -, rfl⟩ := List.mem_map.mp hv
      exact Nat.succ_le_succ (Nat.zero_le _)

variable [FloatText ℚ]

/-- The text of a list of times whose texts are at most `n` characters long. -/
theorem length_write_timesValue {times : List ℚ} {n : ℕ}
    (h : ∀ time ∈ times, (FloatText.repr time).length ≤ n) :
    (timesValue times).write.length ≤ (n + 1) * times.length + 2 := by
  have hitems : ∀ times : List ℚ, (∀ time ∈ times, (FloatText.repr time).length ≤ n) →
      (writeItems (times.map Json.float)).length ≤ (n + 1) * times.length + 1 := by
    intro times hshort
    induction times with
    | nil => simp [writeItems]
    | cons time times ih =>
        have hrest := ih fun other hother => hshort other (List.mem_cons_of_mem _ hother)
        have hfirst := hshort time List.mem_cons_self
        rw [← String.length_toList] at hfirst
        rw [List.map_cons, writeItems, List.length_cons, List.length_append, write,
          List.length_cons, Nat.mul_succ]
        omega
  cases times with
  | nil => simp [timesValue, write]
  | cons time times =>
      have hrest := hitems times fun other hother => h other (List.mem_cons_of_mem _ hother)
      have hfirst := h time List.mem_cons_self
      rw [← String.length_toList] at hfirst
      rw [timesValue, List.map_cons, write, List.length_cons, List.length_append, write,
        List.length_cons, Nat.mul_succ]
      omega

/-- A full minute of times with the texts of floats is within the byte limit. -/
theorem encode_timesValue {times : List ℚ} (hlength : times.length ≤ 100)
    (hshort : ∀ time ∈ times, (FloatText.repr time).length ≤ 24) :
    ∃ payload, encode (timesValue times) 16384 = .ok payload := by
  refine ⟨_, encode_eq_ok_iff.mpr ⟨?_, rfl, ?_⟩⟩
  · rw [visit_timesValue, List.all_eq_true]
    intro v hv
    rcases List.mem_cons.mp hv with rfl | hv
    · rfl
    · obtain ⟨time, -, rfl⟩ := List.mem_map.mp hv
      rfl
  · refine (length_encodeUtf8_le _).trans ?_
    have htext := length_write_timesValue hshort
    rw [sorted_timesValue]
    omega

end Values

/-! ## One request -/

omit [PyRuntime] [FloatText ℚ] in
theorem mapM_number (times : List ℚ) :
    ((times.map Json.float).mapM fun item => (number? item).map fun x => (item, x)) =
      some (times.map fun time => (Json.float time, time)) := by
  induction times with
  | nil => rfl
  | cons time times ih =>
      rw [List.map_cons, List.mapM_cons, ih]
      rfl

/-- The stored times with their numbers. -/
theorem Holds.requestTimes [LawfulFloatText ℚ] (h : j.Holds kept) (hsize : kept.length ≤ 100) :
    ∃ stored : Json ℚ, j.get "requests" = .ok stored ∧
      requestTimes stored = .ok (kept.map fun time => (Json.float time, time)) := by
  rcases h with ⟨rfl, hnone⟩ | ⟨hne, ⟨payload, hencode⟩, hfind⟩
  · exact ⟨.null, by rw [get, hnone], rfl⟩
  · obtain ⟨hplain, -, -⟩ := encode_eq_ok_iff.mp hencode
    refine ⟨timesValue kept, ?_, ?_⟩
    · have hdecode := decode_of_encode hencode ((uniqueKeys_timesValue kept).writable hplain)
      obtain ⟨-, rfl, -⟩ := encode_eq_ok_iff.mp hencode
      rw [get_of_find hfind]
      rw [if_pos (bounded_timesValue hsize), sorted_timesValue] at hdecode
      exact hdecode
    · have htrue : truthy (timesValue kept) = true := by
        simpa [timesValue, truthy] using hne
      have hvalue : timesValue kept = .arr (kept.map Json.float) := rfl
      rw [hvalue] at htrue ⊢
      simp only [Journal.requestTimes, if_pos htrue, mapM_number]

/-- The request is not before the last kept time. -/
def InOrder (now : ℚ) (kept : List ℚ) : Prop := ∀ last ∈ kept.getLast?, last ≤ now

instance (now : ℚ) (kept : List ℚ) : Decidable (InOrder now kept) :=
  inferInstanceAs (Decidable (∀ last ∈ kept.getLast?, last ≤ now))

/-- What a request reads and decides. -/
theorem Holds.request_eq [LawfulFloatText ℚ] (h : j.Holds kept) (hsize : kept.length ≤ 100)
    (now : ℚ) :
    j.request now = j.transaction (fun j => do
      refuseIf (¬ InOrder now kept)
        (Raised.foundry ⟨"clock_rollback", "Request clock moved backwards.", 422⟩)
      refuseIf (100 ≤ (recent 60 now kept).length)
        (Raised.foundry ⟨"provider_rate", "Local provider request budget exhausted.", 429⟩)
      let j ← lift (j.store "requests" (timesValue (recent 60 now kept ++ [now])))
      .ok ((), j)) := by
  obtain ⟨stored, hget, htimes⟩ := h.requestTimes hsize
  have hclock : ((kept.map fun time => (Json.float time, time)).getLast?.any fun last =>
      PyFloat.lt now last.2) = true ↔ ¬ InOrder now kept := by
    rw [List.getLast?_map]
    cases hlast : kept.getLast? <;> simp [InOrder, hlast]
  have hrecent : ((kept.map fun time => (Json.float time, time)).filter fun value =>
      PyFloat.lt (PyFloat.sub now value.2) (PyFloat.ofNat 60)) =
        (recent 60 now kept).map fun time => (Json.float time, time) := by
    rw [List.filter_map, recent]
    congr 1
  have hvalue : ∀ times : List ℚ,
      Json.arr (((times.map fun time => (Json.float time, time)).map Prod.fst) ++
        [Json.float now]) = timesValue (times ++ [now]) := by
    intro times
    simp [timesValue, Function.comp_def]
  simp only [Journal.request, transaction, lift_eq_ok_iff.mpr hget, ok_bind, htimes, hclock, hrecent,
    hvalue, List.length_map]

/-- An accepted request came in order, found room and is kept. -/
theorem Holds.accepted [LawfulFloatText ℚ] (h : j.Holds kept) (hsize : kept.length ≤ 100)
    (hanswer : j.request now = (.ok (), j')) :
    InOrder now kept ∧ (recent 60 now kept).length < 100 ∧
      j'.Holds (recent 60 now kept ++ [now]) := by
  rw [h.request_eq hsize] at hanswer
  rcases transaction_cases j _ with ⟨e, hrun⟩ | ⟨_, _, hrun, hbody⟩
  · rw [hrun] at hanswer
    cases hanswer
  · rw [hrun, Prod.mk.injEq] at hanswer
    obtain ⟨-, rfl⟩ := hanswer
    simp only [bind_eq_ok_iff, refuseIf_eq_ok_iff, lift_eq_ok_iff, not_not, not_le,
      Except.ok.injEq, Prod.mk.injEq] at hbody
    obtain ⟨-, horder, -, hroom, _, hstore, -, rfl⟩ := hbody
    exact ⟨horder, hroom, .inr ⟨by simp, (store_eq_ok_iff.mp hstore).1,
      (find_store hstore).trans (if_pos rfl)⟩⟩

/-- A request in order that finds room is accepted, if the times have texts of floats. -/
theorem Holds.exists_accepted [LawfulFloatText ℚ] (h : j.Holds kept) (hsize : kept.length ≤ 100)
    (horder : InOrder now kept) (hroom : (recent 60 now kept).length < 100)
    (hshort : ∀ time ∈ kept ++ [now], (FloatText.repr time).length ≤ 24) :
    ∃ j', j.request now = (.ok (), j') := by
  have hstore : j.store "requests" (timesValue (recent 60 now kept ++ [now])) =
      .ok ⟨Table.upsert StateRow.key (stateRow "requests"
        (timesValue (recent 60 now kept ++ [now]))) j.state, j.events⟩ := by
    refine store_eq_ok_iff.mpr ⟨encode_timesValue ?_ fun time htime => hshort time ?_, rfl⟩
    · rw [List.length_append]
      exact hroom
    · exact List.Sublist.subset (List.filter_sublist.append_right [now]) htime
  rw [h.request_eq hsize, transaction, refuseIf_of_not (not_not.mpr horder), ok_bind,
    refuseIf_of_not hroom.not_ge, ok_bind, lift_eq_ok_iff.mpr hstore]
  exact ⟨_, rfl⟩

/-! ## All requests -/

/-- A refused request is rolled back. -/
theorem eq_of_refused {error : Raised} (hanswer : j.request now = (.error error, j')) : j' = j := by
  unfold Journal.request at hanswer
  rcases transaction_cases j _ with ⟨e, hrun⟩ | ⟨_, _, hrun, -⟩
  · rw [hrun, Prod.mk.injEq] at hanswer
    exact hanswer.2.symm
  · rw [hrun] at hanswer
    cases hanswer

/-- The rows after a run stand for all accepted times. -/
theorem Requested.exists_kept [LawfulFloatText ℚ] (h : Requested j times) :
    ∃ kept, j.Holds kept ∧ Kept 60 100 times kept := by
  induction h with
  | start fresh => exact ⟨[], .inl ⟨rfl, fresh⟩, .start 60 100⟩
  | accepted before answer ih =>
      obtain ⟨kept, hholds, hkept⟩ := ih
      obtain ⟨horder, hroom, hholds'⟩ := hholds.accepted hkept.length_le answer
      rw [InOrder, hkept.getLast?_eq (by norm_num)] at horder
      exact ⟨_, hholds', hkept.push (by norm_num) horder hroom⟩
  | refused before answer ih => rwa [eq_of_refused answer]
  | other before keeps ih =>
      obtain ⟨kept, hholds, hkept⟩ := ih
      refine ⟨kept, ?_, hkept⟩
      rwa [Holds, find_perform keeps]

/-- The provider budget: accepted times do not go back and no minute has more than a
hundred of them; a refused request changes nothing, and one that does not go back is
refused only if its minute has a hundred. -/
theorem Requested.providerBudget [LawfulFloatText ℚ] (h : Requested j times) :
    times.Pairwise (· ≤ ·) ∧ (∀ t, (within 60 t times).length ≤ 100) ∧
      ∀ now error j', j.request now = (.error error, j') → j' = j ∧
        ((∀ last ∈ times.getLast?, last ≤ now) →
          (∀ time ∈ times ++ [now], (FloatText.repr time).length ≤ 24) →
            (within 60 now times).length = 100) := by
  obtain ⟨kept, hholds, hkept⟩ := h.exists_kept
  refine ⟨hkept.sorted, hkept.bounded, fun now error j' hanswer =>
    ⟨eq_of_refused hanswer, fun horder hshort => ?_⟩⟩
  refine (hkept.bounded now).antisymm (not_lt.mp fun hroom => ?_)
  rw [hkept.within_eq horder] at hroom
  rw [← hkept.getLast?_eq (by norm_num)] at horder
  obtain ⟨j'', hok⟩ := hholds.exists_accepted hkept.length_le horder hroom fun time htime =>
    hshort time (List.Sublist.subset (hkept.sublist.append_right [now]) htime)
  rw [hanswer] at hok
  cases hok

end Budget

open scoped Platform in
/-- One request of a new journal. -/
theorem providerBudget_one_request : ∃ j : Journal, Requested j [0] ∧
    ([0] : List ℚ).Pairwise (· ≤ ·) ∧ (∀ t : ℚ, (within 60 t [0]).length ≤ 100) ∧
      ∀ now error j', j.request now = (.error error, j') → j' = j ∧
        ((∀ last ∈ ([0] : List ℚ).getLast?, last ≤ now) →
          (∀ time ∈ [0, now], (FloatText.repr time).length ≤ 24) →
            (within 60 now [0]).length = 100) := by
  have hholds : Holds {} [] := .inl ⟨rfl, rfl⟩
  obtain ⟨j, hanswer⟩ : ∃ j, Journal.request {} (0 : ℚ) = (.ok (), j) :=
    hholds.exists_accepted (Nat.zero_le _) nofun (by decide) (by decide)
  have hrun : Requested j [0] := .accepted (.start rfl) hanswer
  exact ⟨j, hrun, hrun.providerBudget⟩

end Journal

end Trading

end Foundry
