import Bms.Model.JobsApi
import Bms.Process.Alone

/-! # The range of the file to download

The range is drawn at random once the Content-Length is known. The check refuses files that are
shorter than the sample, the generator needs one that is longer: a file of exactly the sample's
length passes the check and panics.
-/

namespace Bms

open Process Fallible

/-- The bytes of a sample. -/
def sampleBytes (sizeMb : ℤ) : ℤ := sizeMb * 1024 * 1024

/-- A host that answers the HEAD request with this Content-Length, and a generator that may draw any number of its
interval. -/
def fileHost (contentLength : String) : Environment Calls Unit where
  allows _
    | ⟨.headContentLength _, reply⟩ => reply = .ok (some (.ok contentLength))
    | ⟨.genRange high, drawn⟩ => 0 ≤ drawn ∧ drawn < high
    | _ => False
  after s _ := s
  drifts := Eq

/-- Without panicking an error is returned exactly for a file that is too short, and a range inside the file else. -/
def SelectsRange (url : String) (sizeMb : ℤ) (header : String) (contentLength : ℤ) : Prop :=
  (getFileRangeForFile url sizeMb).Completes (fileHost header) ()
    (fun range _ => sampleBytes sizeMb ≤ contentLength ∧
      0 ≤ range.1 ∧ range.1 ≤ range.2 ∧ range.2 ≤ contentLength - 1)
    fun _ _ => contentLength < sampleBytes sizeMb

/-- A range is selected of every file. -/
def RangesTotal : Prop :=
  ∀ (url : String) (sizeMb : ℤ) (header : String) (contentLength : ℤ), parseI64 header = .ok contentLength →
    10 ≤ sizeMb → sizeMb ≤ 1024 → SelectsRange url sizeMb header contentLength

/-- The generator is only asked for a number of a non-empty interval. -/
theorem not_completes_panic {ε α : Type} {header : String} {good : α → Unit → Prop} {bad : ε → Unit → Prop} :
    ¬ (panic : Fallible Calls ε α).Completes (fileHost header) () good bad := by
  rintro ⟨⟨_, reply, _⟩, _⟩
  exact Empty.elim reply

theorem selectsRange_of_ne (url : String) {sizeMb : ℤ} {header : String} {contentLength : ℤ}
    (parsed : parseI64 header = .ok contentLength) (least : 0 ≤ sizeMb) (other : contentLength ≠ sampleBytes sizeMb) :
    SelectsRange url sizeMb header contentLength := by
  have size : 0 ≤ sampleBytes sizeMb := by
    unfold sampleBytes
    omega
  refine (completes_bind ..).mpr ((completes_attempt ..).mpr ⟨⟨(), .ok (some (.ok header)), rfl, rfl⟩, ?_⟩)
  rintro drifted reply rfl rfl
  refine (completes_bind ..).mpr ((completes_outcome ..).mpr ?_)
  simp only [Except.mapError, parsed]
  split
  · next short => exact short
  · next long =>
    change ¬ contentLength < sampleBytes sizeMb at long
    split
    · next empty =>
      change contentLength - sampleBytes sizeMb ≤ 0 at empty
      omega
    · next room =>
      change ¬ contentLength - sampleBytes sizeMb ≤ 0 at room
      refine (completes_bind ..).mpr ((completes_attempt ..).mpr ⟨⟨(), (0 : ℤ), rfl, le_refl _, not_le.mp room⟩, ?_⟩)
      rintro drifted (drawn : ℤ) rfl ⟨low, high⟩
      change 0 ≤ drawn at low
      change drawn < contentLength - sampleBytes sizeMb at high
      refine ⟨not_lt.mp long, low, ?_, ?_⟩
      · change drawn ≤ drawn + sampleBytes sizeMb
        omega
      · change drawn + sampleBytes sizeMb ≤ contentLength - 1
        omega

theorem not_selectsRange (url : String) {sizeMb : ℤ} {header : String}
    (parsed : parseI64 header = .ok (sampleBytes sizeMb)) :
    ¬ SelectsRange url sizeMb header (sampleBytes sizeMb) := by
  intro selects
  have answered := ((completes_attempt ..).mp ((completes_bind ..).mp selects)).2 () (.ok (some (.ok header))) rfl rfl
  have read := (completes_outcome ..).mp ((completes_bind ..).mp answered)
  simp only [Except.mapError, parsed] at read
  have size : sizeMb * 1024 * 1024 = sampleBytes sizeMb := rfl
  rw [size, if_neg (lt_irrefl (sampleBytes sizeMb)), if_pos (sub_self (sampleBytes sizeMb)).le] at read
  exact not_completes_panic read

/-- A range is selected exactly of the files that are not as long as the sample. -/
theorem selectsRange_iff (url : String) {sizeMb : ℤ} {header : String} {contentLength : ℤ}
    (parsed : parseI64 header = .ok contentLength) (least : 10 ≤ sizeMb) (most : sizeMb ≤ 1024) :
    SelectsRange url sizeMb header contentLength ↔ contentLength ≠ sampleBytes sizeMb := by
  constructor
  · rintro selects rfl
    exact not_selectsRange url parsed selects
  · exact selectsRange_of_ne url parsed (by omega)

/-- A file that is one byte longer than the smallest sample. -/
theorem selectsRange_longer : SelectsRange "http://host/file" 10 "10485761" 10485761 :=
  (selectsRange_iff "http://host/file" rfl (by decide) (by decide)).mpr (by decide)

/-- A file of exactly the smallest sample's length. -/
theorem not_rangesTotal : ¬ RangesTotal := fun total =>
  (selectsRange_iff "http://host/file" rfl (by decide) (by decide)).mp
    (total "http://host/file" 10 "10485760" 10485760 rfl (by decide) (by decide)) rfl

end Bms
