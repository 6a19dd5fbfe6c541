import BotApi.Proofs.Catalog.Loaded
import BotApi.Proofs.CommandLine.Current
/-!
Publishing one page again and again. The file holds the catalog of the page from the first time on; it is written
exactly when it did not hold it before, whatever the layout of its text, and so no second time.
-/

namespace BotApi.Spec

open Text (Path)

variable {d d' : Disk} {p : Path} {html : String} {s t : Spec}

theorem isFile_of_load (h : load d p = .ok t) : d.isFile p = true := by
  cases hfile : d.file? p with
  | some octets => simp [Disk.isFile, hfile]
  | none =>
      have hread : ∃ fault, d.readText p = .error (.file fault p.text) := by
        simp only [Disk.readText, Disk.read, hfile]
        exact ⟨_, rfl⟩
      obtain ⟨fault, hread⟩ := hread
      obtain ⟨text, htext, -⟩ := load_eq_ok.1 h
      cases hread.symm.trans htext

theorem heldFingerprint_of_load (h : load d p = .ok t) : (heldFingerprint d p).2 = .ok (some t.fingerprint) := by
  have hholds : d.holds p = true := by simp [Disk.holds, isFile_of_load h]
  simp [heldFingerprint, hholds, h]

theorem exists_heldFingerprint (hclear : ∀ f, ¬ d.Garbled p f) : ∃ held, (heldFingerprint d p).2 = .ok held := by
  unfold heldFingerprint
  split
  · cases hload : load d p with
    | ok t => exact ⟨_, rfl⟩
    | error e =>
        obtain ⟨fault, rfl⟩ := reported_of_load hclear hload
        exact ⟨_, rfl⟩
  · exact ⟨_, rfl⟩

theorem publish_of_load (hpage : (ofPage html).2 = .ok s) (hload : load d p = .ok s) :
    (publish d p html).2 = .ok ⟨s, d, false⟩ := by
  rw [publish_eq hpage (heldFingerprint_of_load hload), if_pos rfl]

theorem exists_publish (hpage : (ofPage html).2 = .ok s) (hclear : ∀ f, ¬ d.Garbled p f) (hp : d.Writable p) :
    ∃ r, (publish d p html).2 = .ok r := by
  obtain ⟨held, hheld⟩ := exists_heldFingerprint hclear
  obtain ⟨d', hsave⟩ := exists_save hp s
  rw [publish_eq hpage hheld, hsave]
  split <;> exact ⟨_, rfl⟩

theorem publish_settles (hpage : (ofPage html).2 = .ok s)
    (happart : ∀ t, load d p = .ok t → t.fingerprint = s.fingerprint → t.toJson = s.toJson) :
    ((∀ f, ¬ d.Garbled p f) → d.Writable p → ∃ r, (publish d p html).2 = .ok r) ∧
    ∀ r, (publish d p html).2 = .ok r → load r.disk p = .ok s ∧
      (r.written = false ↔ load d p = .ok s) ∧ (r.disk.file? p = d.file? p ↔ load d p = .ok s) ∧
      (load d p = .ok s → r.disk = d) ∧ (publish r.disk p html).2 = .ok ⟨s, r.disk, false⟩ := by
  refine ⟨exists_publish hpage, fun r hr => ?_⟩
  obtain ⟨hproper, hrefs⟩ := proper_ofPage hpage
  have hnow : load r.disk p = .ok s ∧ (r.written = false ↔ load d p = .ok s) := by
    obtain ⟨hspec, hcases⟩ := published_cases hr
    obtain rfl : s = r.spec := Except.ok.inj (hpage.symm.trans hspec)
    obtain ⟨hwritten, hdisk, hheld⟩ | ⟨hwritten, hsave, hother⟩ := hcases
    · obtain ⟨t, ht, hfingerprint⟩ := load_of_heldFingerprint hheld
      obtain rfl : t = r.spec := eq_of_toJson (happart t ht hfingerprint)
      exact ⟨hdisk ▸ ht, by simp [hwritten, ht]⟩
    · refine ⟨load_of_save hproper hrefs hsave, by simp [hwritten], fun hload => ?_⟩
      exact absurd (heldFingerprint_of_load hload) hother
  obtain ⟨hload, hwritten⟩ := hnow
  have hsame : load d p = .ok s → r.disk = d := by
    intro h
    rw [publish_of_load hpage h] at hr
    cases hr
    rfl
  have hfile : r.disk.file? p = d.file? p ↔ load d p = .ok s :=
    ⟨fun h => load_congr h hload, fun h => by rw [hsame h]⟩
  exact ⟨hload, hwritten, hfile, hsame, publish_of_load hpage hload⟩

namespace Reformatted

def markup : String := "<div id=\"dev_page_content\"><h3>Getting updates</h3>" ++
  "<h4><a href=\"#chat\"></a>Chat</h4>" ++
  "<h4><a href=\"#leave\"></a>leave</h4><table><thead><tr><th>Parameter</th><th>Type</th></tr></thead>" ++
  "<tbody><tr><td>chat</td><td><a href=\"#chat\">Chat</a></td></tr></tbody></table></div>"

def params : List Param := [⟨"chat", .ref "chat", false, "", none, false⟩]

def elements : List Element :=
  [⟨"chat", "Chat", .type, "", some [], none, none, none⟩, ⟨"leave", "leave", .method, "", none, some params, none, none⟩]

def catalog : Spec := ⟨[⟨"leave", "leave", "", params, false, []⟩], [⟨"chat", "Chat", "", .fields []⟩]⟩

theorem ofPage_markup : (ofPage markup).2 = .ok catalog := by
  have hpage : ((Html.parse? markup.toList).bind fun page => (Page.elements page).2.toOption) = some elements := by
    decide +kernel
  obtain ⟨page, hparse, hfound⟩ := Option.bind_eq_some_iff.1 hpage
  have helements : (Page.elements page).2 = .ok elements := ok_of_toOption hfound
  have hcatalog : ofElements elements = .ok catalog := by cbv
  exact ofPage_eq_ok.2 ⟨page, elements, hparse, helements, hcatalog⟩

def path : Path := ⟨false, ["spec.json"]⟩

def text : String := "\x7b\"types\": [\x7b\"id\": \"chat\", \"name\": \"Chat\", \"fields\": []\x7d], " ++
  "\"methods\": [\x7b\"id\": \"leave\", \"name\": \"leave\", \"params\": [\x7b\"name\": \"chat\", " ++
  "\"type\": \x7b\"kind\": \"ref\", \"id\": \"chat\"\x7d, \"required\": false\x7d]\x7d]\x7d"

def disk : Disk := ⟨[(path, Text.Utf8.encode text.toList)], []⟩

theorem one_line : ∀ c ∈ text.toList, c ≠ '\r' ∧ c ≠ '\n' := by
  have hall : text.toList.all (fun c => c != '\r' && c != '\n') = true := by decide +kernel
  simpa using hall

theorem load : load disk path = .ok catalog := by
  have hwrite : Disk.empty.writeText path text = .ok disk := rfl
  have hread : disk.readText path = .ok text := Disk.readText_of_writeText (fun c hc => (one_line c hc).1) hwrite
  have hparse : ofJson? text = .ok catalog := by decide +kernel
  exact load_eq_ok.2 ⟨text, hread, hparse, rfl⟩

end Reformatted

theorem reformatted_kept : (∀ t, load Reformatted.disk Reformatted.path = .ok t →
      t.fingerprint = Reformatted.catalog.fingerprint → t.toJson = Reformatted.catalog.toJson) ∧
    Reformatted.text ≠ Reformatted.catalog.toJson ++ "\n" ∧
    ∃ r, (publish Reformatted.disk Reformatted.path Reformatted.markup).2 = .ok r ∧ r.written = false ∧
      r.disk = Reformatted.disk := by
  have happart (t : Spec) (ht : load Reformatted.disk Reformatted.path = .ok t)
      (_ : t.fingerprint = Reformatted.catalog.fingerprint) : t.toJson = Reformatted.catalog.toJson := by
    rw [Reformatted.load] at ht
    cases ht
    rfl
  obtain ⟨hexists, hsettles⟩ := publish_settles Reformatted.ofPage_markup happart
  obtain ⟨r, hr⟩ := hexists (not_garbled_of_load Reformatted.load) ⟨by decide, .inl (by decide)⟩
  obtain ⟨-, hwritten, -, hsame, -⟩ := hsettles r hr
  refine ⟨happart, fun htext => ?_, r, hr, hwritten.2 Reformatted.load, hsame Reformatted.load⟩
  have hend : '\n' ∈ Reformatted.text.toList := by simp [htext]
  exact (Reformatted.one_line _ hend).2 rfl

end BotApi.Spec
