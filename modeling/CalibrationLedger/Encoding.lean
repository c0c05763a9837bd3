import CalibrationLedger.Commitments
import CalibrationLedger.Reference

set_option autoImplicit false

-- What the canonical bytes of a value, and their digest, say of the value.
namespace CalibrationLedger

open JsonText Digest

section

variable (rt : Runtime)

-- Every value of scalar strings and finite numbers has canonical bytes, and two of
-- them have the same ones just when they differ in the order of members only. It is
-- enough that one of them repeats no key.
theorem canonical_json_is_canonical (a b : Json) (left : encodable a) (right : encodable b)
    (distinct : Distinct a) :
    (∃ data, canonicalJson rt a = .ok data) ∧ (∃ data, canonicalJson rt b = .ok data) ∧
    (canonicalJson rt a = canonicalJson rt b ↔ Reordered a b) := by
  obtain ⟨data, written⟩ := canonical_json_accepts rt a left
  refine ⟨⟨data, written⟩, canonical_json_accepts rt b right, fun same => ?_, fun same => ?_⟩
  · rw [← sort_keys_reordered a b distinct]
    exact canonical_json_injective rt a b data written (same ▸ written)
  · rw [canonicalJson, canonicalJson, dumps, dumps, encodable_finite a left, encodable_finite b right,
      (sort_keys_reordered a b distinct).mpr same]

end

-- A reading and the same reading with its members the other way round.
def sampleReading : Json :=
  .obj [(text "units", .str (text "°C")), (text "nested", .obj [(text "b", .bool true), (text "a", .null)])]

def sampleReordered : Json :=
  .obj [(text "nested", .obj [(text "a", .null), (text "b", .bool true)]), (text "units", .str (text "°C"))]

theorem sample_reordered : Reordered sampleReading sampleReordered := by
  refine ⟨_, List.Perm.swap _ _ [], rfl, rfl, rfl, ?_, trivial⟩
  exact ⟨_, List.Perm.swap _ _ [], rfl, rfl, rfl, trivial, trivial⟩

theorem sample_canonical : canonicalJson reference sampleReading = canonicalJson reference sampleReordered ∧
    canonicalJson reference sampleReading ≠ canonicalJson reference (.arr [sampleReading]) := by
  have fine : encodable sampleReading :=
    ⟨text_scalars _, text_scalars _, text_scalars _,
      ⟨text_scalars _, trivial, text_scalars _, trivial, trivial⟩, trivial⟩
  have other : encodable sampleReordered :=
    ⟨text_scalars _, ⟨text_scalars _, trivial, text_scalars _, trivial, trivial⟩, text_scalars _,
      text_scalars _, trivial⟩
  have distinct : Distinct sampleReading :=
    ⟨by decide, trivial, ⟨by decide, trivial, trivial, trivial⟩, trivial⟩
  refine ⟨(canonical_json_is_canonical reference _ _ fine other distinct).2.2.mpr sample_reordered,
    fun same => ?_⟩
  exact (canonical_json_is_canonical reference _ (.arr [sampleReading]) fine
      ⟨fine, trivial⟩ distinct).2.2.mp same

end CalibrationLedger
