import BotApi.Proofs.Catalog.Artifact
import BotApi.Proofs.Draft.Grounded
/-!
Loading a catalog from whatever a file holds: all of its references resolve and every type it describes is found
for good, or loading fails. Octets that are no text are the one thing that it does not report.
-/

namespace BotApi

open Compiler (Use)
open Text (Path Undecodable)

def Disk.Garbled (d : Disk) (p : Path) (f : Undecodable) : Prop :=
  ∃ octets, d.file? p = some octets ∧ Text.Utf8.decode octets = .error f

namespace Spec

variable {d : Disk} {p : Path} {s : Spec} {f : Undecodable} {e : Error} {id : String}

theorem load_of_garbled (h : d.Garbled p f) : load d p = .error (.misuse .encoding f.message) := by
  obtain ⟨octets, hfile, hdecode⟩ := h
  simp only [load, Disk.readText, Disk.read, hfile, hdecode]

theorem not_garbled_of_load (h : load d p = .ok s) (f : Undecodable) : ¬ d.Garbled p f := by
  intro hgarbled
  rw [load_of_garbled hgarbled] at h
  cases h

theorem reported_of_load (hclear : ∀ f, ¬ d.Garbled p f) (h : load d p = .error e) : ∃ fault, e = .compile fault := by
  have hread : (∃ fault text, d.readText p = .error (.file fault text)) ∨ ∃ text, d.readText p = .ok text := by
    unfold Disk.readText Disk.read
    cases hfile : d.file? p with
    | none => exact .inl ⟨_, _, rfl⟩
    | some octets =>
        cases hdecode : Text.Utf8.decode octets with
        | error f => exact absurd ⟨octets, hfile, hdecode⟩ (hclear f)
        | ok cs =>
            refine .inr ⟨.ofList (Disk.lineFeeds cs), ?_⟩
            simp only [hdecode]
  unfold load at h
  rcases hread with ⟨fault, text, hread⟩ | ⟨text, hread⟩
  · rw [hread] at h
    cases h
    exact ⟨_, rfl⟩
  · rw [hread] at h
    dsimp only at h
    split at h
    · cases h
      exact ⟨_, rfl⟩
    · split at h
      · cases h
        exact ⟨_, rfl⟩
      · cases h

theorem checkReferences_of_load (h : load d p = .ok s) : s.checkReferences = .ok () := by
  obtain ⟨t, -, -, hrefs⟩ := load_eq_ok.1 h
  exact hrefs

theorem Resolved.finds (resolved : s.Resolved) (us : List Use) (hid : s.Covers id) (missing : String) :
    (Use.draft id).answer ((Compiler.new s).after us) ≠ .error (.compile (.unknownType missing)) := by
  intro h
  have hgrounded : Work.Grounded s (Use.draft id).work := (Work.Grounded.draft resolved hid).bind fun _ => .pure _
  cases hgrounded.unfit (Compiler.spec_after us rfl) h

theorem load_reported (d : Disk) (p : Path) :
    (∀ f, d.Garbled p f → load d p = .error (.misuse .encoding f.message)) ∧
    ((∀ f, ¬ d.Garbled p f) → match load d p with
      | .ok s => s.Resolved ∧ ∀ (us : List Use) (id missing : String), s.Covers id →
          (Use.draft id).answer ((Compiler.new s).after us) ≠ .error (.compile (.unknownType missing))
      | .error e => ∃ fault, e = .compile fault) := by
  refine ⟨fun f h => load_of_garbled h, fun hclear => ?_⟩
  cases hload : load d p with
  | error e => exact reported_of_load hclear hload
  | ok s =>
      have resolved := resolved_of_checkReferences (checkReferences_of_load hload)
      exact ⟨resolved, fun us id missing hid => resolved.finds us hid missing⟩

theorem album_found : ∃ d, Album.spec.save .empty Album.path = .ok d ∧ (∀ f, ¬ d.Garbled Album.path f) ∧
    load d Album.path = .ok Album.spec ∧ ∀ (us : List Use) (missing : String),
      (Use.draft "photo").answer ((Compiler.new Album.spec).after us) ≠ .error (.compile (.unknownType missing)) := by
  obtain ⟨d, hsave⟩ := exists_save (d := .empty) (p := Album.path) ⟨by decide, .inr ⟨by decide, by decide⟩⟩ Album.spec
  have hload : load d Album.path = .ok Album.spec := load_of_save Album.proper rfl hsave
  have hclear : ∀ f, ¬ d.Garbled Album.path f := not_garbled_of_load hload
  have hreported := (load_reported d Album.path).2 hclear
  rw [hload] at hreported
  exact ⟨d, hsave, hclear, hload, fun us missing => hreported.2 us "photo" missing ⟨Album.photo, by simp [Album.spec], rfl⟩⟩

namespace Garbled

def path : Path := ⟨false, ["spec.json"]⟩

def disk : Disk := ⟨[(path, [0xFF, 0xFE, 0x7B, 0x7D])], []⟩

end Garbled

theorem garbled_not_reported :
    load Garbled.disk Garbled.path = .error (.misuse .encoding
      "'utf-8' codec can't decode byte 0xff in position 0: invalid start byte") ∧
    ∀ fault, load Garbled.disk Garbled.path ≠ .error (.compile fault) := by
  have hload : load Garbled.disk Garbled.path = .error (.misuse .encoding
      "'utf-8' codec can't decode byte 0xff in position 0: invalid start byte") := rfl
  refine ⟨hload, fun fault h => ?_⟩
  rw [hload] at h
  cases h

end Spec

end BotApi
