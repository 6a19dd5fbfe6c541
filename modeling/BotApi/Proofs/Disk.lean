import BotApi.Disk
import BotApi.Proofs.Result
import BotApi.Proofs.Text.Utf8
/-!
What a file holds after it was written, and which paths can be written to.
-/

namespace BotApi

open Text (Path)

namespace Disk

variable {d d' : Disk} {p : Path} {b : List UInt8}

theorem find?_replace (files : List (Path × List UInt8)) (p : Path) (b : List UInt8) :
    (files.map fun f => if f.1 == p then (p, b) else f).find? (·.1 == p) =
      (files.find? (·.1 == p)).map fun _ => (p, b) := by
  induction files with
  | nil => rfl
  | cons f files ih =>
      by_cases h : f.1 = p
      · simp [h]
      · simpa [h] using ih

theorem file?_put (d : Disk) (p : Path) (b : List UInt8) : (d.put p b).file? p = some b := by
  cases h : d.files.find? (·.1 == p) with
  | some f =>
      have hfile : d.isFile p = true := by simp [isFile, file?, h]
      rw [put, if_pos hfile, file?, find?_replace, h]
      rfl
  | none => simp [put, isFile, file?, h, List.find?_append]

theorem find?_replace_of_ne {p q : Path} (h : q ≠ p) (files : List (Path × List UInt8)) (b : List UInt8) :
    (files.map fun f => if f.1 == p then (p, b) else f).find? (·.1 == q) = files.find? (·.1 == q) := by
  induction files with
  | nil => rfl
  | cons f files ih =>
      by_cases hf : f.1 = p
      · simpa [hf, h.symm] using ih
      · rw [List.map_cons, List.find?_cons, List.find?_cons, ih, if_neg (by simpa using hf)]

theorem file?_put_of_ne {q : Path} (h : q ≠ p) (d : Disk) (b : List UInt8) :
    (d.put p b).file? q = d.file? q := by
  rw [put, file?, file?]
  split
  · rw [find?_replace_of_ne h]
  · simp [List.find?_append, h.symm]

theorem read_of_write (h : d.write p b = .ok d') : d'.read p = .ok b := by
  rw [write] at h
  split at h
  · cases h
  · split at h
    · cases h
      rw [read, file?_put]
    · cases h

theorem lineFeeds_of_noReturn {s : List Char} (h : ∀ c ∈ s, c ≠ '\r') : lineFeeds s = s := by
  induction s with
  | nil => rfl
  | cons c s ih =>
      rw [List.forall_mem_cons] at h
      rw [lineFeeds, ih h.2]
      · exact fun _ hc => absurd hc h.1
      · exact fun hc => absurd hc h.1

theorem readText_of_writeText {t : String} (ht : ∀ c ∈ t.toList, c ≠ '\r')
    (h : d.writeText p t = .ok d') : d'.readText p = .ok t := by
  rw [writeText] at h
  cases hwrite : d.write p (Text.Utf8.encode t.toList) with
  | error f =>
      rw [hwrite] at h
      cases h
  | ok d₁ =>
      rw [hwrite] at h
      cases h
      rw [readText, read_of_write hwrite]
      simp only [Text.Utf8.decode_encode, lineFeeds_of_noReturn ht, String.ofList_toList]

theorem file?_of_writeText {t : String} (h : ((d.makeParents p).bind fun d => d.writeText p t) = .ok d') :
    d'.file? p = some (Text.Utf8.encode t.toList) ∧ ∀ q, q ≠ p → d'.file? q = d.file? q := by
  obtain ⟨d₁, hparents, hwrite⟩ := ok_of_bind h
  have hsame : d₁.files = d.files := by
    unfold makeParents makeDirectory at hparents
    grind
  have hput : d' = d₁.put p (Text.Utf8.encode t.toList) := by
    unfold writeText write at hwrite
    grind
  refine ⟨hput ▸ file?_put _ _ _, fun q hq => ?_⟩
  rw [hput, file?_put_of_ne hq, file?, hsame, file?]

theorem readText_congr {d₁ d₂ : Disk} {t : String} (h : d₁.file? p = d₂.file? p)
    (hread : d₁.readText p = .ok t) : d₂.readText p = .ok t := by
  cases hfile : d₁.file? p with
  | none =>
      rw [readText, read, hfile] at hread
      cases hread
  | some b =>
      rw [readText, read, ← h, hfile]
      rwa [readText, read, hfile] at hread

def Writable (d : Disk) (p : Path) : Prop :=
  d.isDirectory p = false ∧ (d.isDirectory p.parent = true ∨
    d.isFile p.parent = false ∧ p.parent.ancestors.any d.isFile = false)

theorem isWithin_parent (h : p.parts ≠ []) : isWithin p p.parent = false := by
  rw [isWithin, Bool.and_eq_false_iff]
  right
  rw [← Bool.not_eq_true, List.isPrefixOf_iff_prefix]
  intro hprefix
  have hlength := hprefix.length_le
  have hpos := List.length_pos_iff.2 h
  rw [Path.parent, List.length_dropLast] at hlength
  omega

theorem exists_write (h : d.Writable p) (b : List UInt8) :
    ∃ d₁ d₂, d.makeParents p = .ok d₁ ∧ d₁.write p b = .ok d₂ := by
  obtain ⟨hnew, hparent⟩ := h
  have hparts : p.parts ≠ [] := by
    intro hempty
    simp [isDirectory, hempty] at hnew
  cases hdirectory : d.isDirectory p.parent with
  | true => exact ⟨d, d.put p b, by simp [makeParents, makeDirectory, hdirectory],
      by simp [write, hnew, hdirectory]⟩
  | false =>
      rw [hdirectory] at hparent
      obtain ⟨hfree, habove⟩ := hparent.resolve_left (by decide)
      let made : Disk := { d with directories := d.directories ++ [p.parent] }
      have hmade : made.isDirectory p = false := by
        simpa [made, isDirectory, hparts, isWithin_parent] using hnew
      have hthere : made.isDirectory p.parent = true := by
        simp [made, isDirectory, isWithin]
      exact ⟨made, made.put p b, by simp [made, makeParents, makeDirectory, hdirectory, hfree, habove],
        by simp [write, hmade, hthere]⟩

end Disk

end BotApi
