import MergeDecoration.Proofs.Value.Reading
import MergeDecoration.Web

/-!
Texts that the reader gives up on. It counts the lists and objects that it is inside of, and where
they are too many it stops, before it can tell whether the text is JSON.
-/
namespace MergeDecoration.Json

variable {fuel depth offset : Nat} {rest : List Char}

theorem readValue_of_limit (h : depthLimit ≤ depth) :
    readValue (fuel + 1) depth ⟨offset, '[' :: rest⟩ = .error .tooDeep := by
  simp [readValue, h]

theorem readValue_of_brackets (h : depth < depthLimit) :
    readValue (fuel + 1) depth ⟨offset, '[' :: '[' :: rest⟩ =
      readItems fuel (depth + 1) [] ⟨offset + 1, '[' :: rest⟩ := by
  have hspace : Cursor.skipSpace ⟨offset + 1, '[' :: rest⟩ = ⟨offset + 1, '[' :: rest⟩ := rfl
  simp [readValue, Nat.not_le.mpr h, Cursor.skip, hspace]

theorem readItems_of_readValue {items : List Value} {c : Cursor}
    (h : readValue fuel depth c = .error .tooDeep) :
    readItems (fuel + 1) depth items c = .error .tooDeep :=
  bind_eq_error.mpr (Or.inl h)

/-- `levels` more may be open, and more brackets than that are opened. -/
theorem readValue_replicate {levels n : Nat} (hlevels : depthLimit ≤ depth + levels)
    (hn : levels < n) (hfuel : 2 * levels < fuel) :
    readValue fuel depth ⟨offset, List.replicate n '['⟩ = .error .tooDeep := by
  induction levels generalizing fuel depth offset n with
  | zero =>
    obtain ⟨fuel, rfl⟩ : ∃ m, fuel = m + 1 := ⟨fuel - 1, by omega⟩
    obtain ⟨n, rfl⟩ : ∃ m, n = m + 1 := ⟨n - 1, by omega⟩
    exact readValue_of_limit hlevels
  | succ levels ih =>
    obtain ⟨fuel, rfl⟩ : ∃ m, fuel = m + 2 := ⟨fuel - 2, by omega⟩
    obtain ⟨n, rfl⟩ : ∃ m, n = m + 2 := ⟨n - 2, by omega⟩
    by_cases hlimit : depthLimit ≤ depth
    · exact readValue_of_limit hlimit
    · have hnext : readValue fuel (depth + 1) ⟨offset + 1, List.replicate (n + 1) '['⟩ =
          .error .tooDeep := ih (by omega) (by omega) (by omega)
      rw [List.replicate_succ, List.replicate_succ, readValue_of_brackets (by omega)]
      exact readItems_of_readValue hnext

/-- Brackets that are never closed are no JSON, and the reader does not come to say so. -/
theorem read_replicate {n : Nat} (h : depthLimit < n) :
    read (String.ofList (List.replicate n '[')) = .error .tooDeep := by
  obtain ⟨n, rfl⟩ : ∃ m, n = m + 1 := ⟨n - 1, by omega⟩
  have hvalue : readValue (2 * (List.replicate (n + 1) '[').length + 2) 0
      ⟨0, List.replicate (n + 1) '['⟩ = .error .tooDeep :=
    readValue_replicate (Nat.le_add_left depthLimit 0) h (by simp; omega)
  have hwhole : readWhole (List.replicate (n + 1) '[') = .error .tooDeep :=
    bind_eq_error.mpr (Or.inl hvalue)
  rw [read, String.toList_ofList]
  exact mapError_eq_error.mpr ⟨.tooDeep, hwhole, rfl⟩

end MergeDecoration.Json

namespace MergeDecoration.Web

/-- A body of too many brackets is no JSON, but is not refused as such. -/
theorem Response.json_replicate {n : Nat} (h : Json.depthLimit < n) :
    ({ body := String.ofList (List.replicate n '[') } : Response).json = .error .tooDeep := by
  obtain ⟨n, rfl⟩ : ∃ m, n = m + 1 := ⟨n - 1, by omega⟩
  have hread := Json.read_replicate h
  simp only [json, String.toList_ofList, List.replicate_succ] at hread ⊢
  split
  · next heq =>
    cases heq
  · exact hread

end MergeDecoration.Web
