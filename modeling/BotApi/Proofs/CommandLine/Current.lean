import BotApi.Proofs.Catalog.Page
import BotApi.Proofs.CommandLine.Failure
/-!
Whether the catalog that an update leaves is that of the page which the server has. A version that a file
keeps vouches for the catalog at one path, which it does not name: an update relies on it when it is told
that the page is unchanged, and does not look at its output then. Files are told apart by paths as they are spelled.
-/

namespace BotApi

open Text (Path)

namespace Spec

variable {d d' : Disk} {p : Path} {s t : Spec}

theorem load_congr (h : d.file? p = d'.file? p) (hload : load d p = .ok t) : load d' p = .ok t := by
  obtain ⟨t, hread, hparse⟩ := load_eq_ok.1 hload
  exact load_eq_ok.2 ⟨t, Disk.readText_congr h hread, hparse⟩

theorem Publishes.load (h : s.Publishes d p d') (hs : s.Proper) (hrefs : s.checkReferences = .ok ()) :
    ∃ t, load d' p = .ok t ∧ t.fingerprint = s.fingerprint := by
  cases h with
  | held loads same => exact ⟨_, loads, same⟩
  | saved saves => exact ⟨s, load_of_save hs hrefs saves, rfl⟩

end Spec

namespace CommandLine

structure Edition where
  html : String
  version : String

structure Edition.Tagged (e : Edition) : Prop where
  nonempty : e.version ≠ ""
  trimmed : Text.onChars (Text.trim Text.isBlank) e.version = e.version
  noReturn : ∀ c ∈ e.version.toList, c ≠ '\r'

-- The server has the edition. It may fail, but what it sends is the edition, and it says that the page is
-- unchanged exactly if it is asked for what has changed since the version of the edition.
structure Serves (web : Page.Web) (e : Edition) : Prop where
  page : ∀ v s, web v = .ok s → 200 ≤ s.status → s.status < 300 →
    s.text = e.html ∧ (s.headers.get? "ETag").bind Value.str? = some e.version
  unchanged : ∀ v s, web v = .ok s → (s.status = 304 ↔ v.headers = [("If-None-Match", .str e.version)])

def Current (d : Disk) (output : Path) (e : Edition) : Prop :=
  ∃ s, (Spec.ofPage e.html).2 = .ok s ∧ Spec.load d output = .ok s

def Agrees (d : Disk) (output : Path) (e : Edition) : Prop :=
  ∃ s t, (Spec.ofPage e.html).2 = .ok s ∧ Spec.load d output = .ok t ∧ t.fingerprint = s.fingerprint

def Run.Updates (r : Run) (output versionFile : Path) : Prop :=
  ∃ url force, ∀ d, Request.ofLine d r.args = .run (.update url output versionFile force)

def Run.Succeeds (r : Run) (d : Disk) : Prop := (run r.web d r.args).status = 0

def Run.Unchanged (r : Run) (d : Disk) : Prop :=
  ∃ url output versionFile force, Request.ofLine d r.args = .run (.update url output versionFile force) ∧
    Fetches r.web d url versionFile force none

-- Since the version file was missing or the page was downloaded, nothing has touched the output and the
-- version file but updates of this very pair of files, against servers that have one of the editions.
inductive Intact (editions : Edition → Prop) (output versionFile : Path) : Disk → Prop
  | missing {d : Disk} (missing : d.file? versionFile = none) : Intact editions output versionFile d
  | downloaded {d : Disk} {r : Run} {e : Edition} (edition : editions e) (serves : Serves r.web e)
      (updates : r.Updates output versionFile) (succeeds : r.Succeeds d) (sent : ¬ r.Unchanged d) :
      Intact editions output versionFile (r.disk d)
  | updated {d : Disk} {r : Run} {e : Edition} (intact : Intact editions output versionFile d)
      (edition : editions e) (serves : Serves r.web e) (updates : r.Updates output versionFile)
      (sound : (run r.web d r.args).crash = none) : Intact editions output versionFile (r.disk d)
  | apart {d d' : Disk} (intact : Intact editions output versionFile d)
      (sameOutput : d'.file? output = d.file? output)
      (sameVersion : d'.file? versionFile = d.file? versionFile) : Intact editions output versionFile d'

variable {web : Page.Web} {d d' d₁ : Disk} {output versionFile : Path} {e : Edition} {r : Run}
  {url : String} {force : Bool}

theorem Agrees.congr (h : Agrees d output e) (hd : d.file? output = d'.file? output) :
    Agrees d' output e := by
  obtain ⟨s, t, hs, ht, hst⟩ := h
  exact ⟨s, t, hs, Spec.load_congr hd ht, hst⟩

theorem agrees_of_publishes {s : Spec} (hcatalog : (Spec.ofPage e.html).2 = .ok s)
    (h : s.Publishes d output d') : Agrees d' output e := by
  obtain ⟨hproper, hrefs⟩ := Spec.proper_ofPage hcatalog
  obtain ⟨t, ht, hst⟩ := h.load hproper hrefs
  exact ⟨s, t, hcatalog, ht, hst⟩

theorem Serves.fetched (h : Serves web e) {page : Page.Download}
    (hfetch : Fetches web d url versionFile force (some page)) :
    page.html = e.html ∧ page.version = some e.version := by
  obtain ⟨last, -, hdownload⟩ := hfetch
  unfold Page.download at hdownload
  split at hdownload
  · cases hdownload
  · rename_i s hs
    split at hdownload
    · cases hdownload
    · split at hdownload
      · rename_i hrange
        cases hdownload
        exact h.page _ _ hs hrange.1 hrange.2
      · cases hdownload

theorem since_headers {last : Option String} {v : String} {timeout : Float}
    (h : (Page.Visit.since last url timeout).headers = [("If-None-Match", .str v)]) : last = some v := by
  cases last with
  | none => cases h
  | some w =>
      dsimp only [Page.Visit.since] at h
      split at h
      · cases h
      · simpa using h

theorem Serves.asked (h : Serves web e) (hfetch : Fetches web d url versionFile force none) :
    Page.keptVersion d versionFile = .ok (some e.version) := by
  obtain ⟨last, hlast, hdownload⟩ := hfetch
  unfold Page.download at hdownload
  split at hdownload
  · cases hdownload
  · rename_i s hs
    split at hdownload
    · rename_i hstatus
      obtain rfl := since_headers ((h.unchanged _ _ hs).1 hstatus)
      cases force with
      | true => cases hlast
      | false => exact hlast
    · split at hdownload <;> cases hdownload

theorem file?_of_keptVersion {v : String} (h : Page.keptVersion d versionFile = .ok (some v)) :
    (d.file? versionFile).isSome := by
  unfold Page.keptVersion at h
  split at h
  · obtain ⟨t, ht, -⟩ := ok_of_map h
    cases hfile : d.file? versionFile with
    | some b => rfl
    | none =>
        rw [Disk.readText, Disk.read, hfile] at ht
        cases ht
  · cases h

theorem Edition.Tagged.kept (htagged : e.Tagged)
    (h : d.file? versionFile = some (Text.Utf8.encode e.version.toList)) :
    Page.keptVersion d versionFile = .ok (some e.version) := by
  have hholds : d.holds versionFile = true := by simp [Disk.holds, Disk.isFile, h]
  have hread : d.readText versionFile = .ok e.version := by
    rw [Disk.readText, Disk.read, h]
    simp only [Text.Utf8.decode_encode, Disk.lineFeeds_of_noReturn htagged.noReturn, String.ofList_toList]
  have hsome : e.version.isEmpty = false := by simpa using htagged.nonempty
  simp [Page.keptVersion, hholds, hread, Except.map, htagged.trimmed, hsome]

theorem Command.Does.pair {res : Except Error Unit}
    (h : Command.Does web d (.update url output versionFile force) res d') (hserves : Serves web e)
    (htagged : e.Tagged) (hne : output ≠ versionFile) :
    d' = d ∧ (res = .ok () → Fetches web d url versionFile force none) ∨
    Agrees d' output e ∧ d'.file? versionFile = some (Text.Utf8.encode e.version.toList) ∨
    ∃ f path, res = .error (.file f path) := by
  cases h with
  | stopped => exact .inl ⟨rfl, nofun⟩
  | unchanged fetches => exact .inl ⟨rfl, fun _ => fetches⟩
  | untagged fetches _ _ version =>
      rw [(hserves.fetched fetches).2] at version
      exact absurd version htagged.nonempty
  | tagged fetches catalog publishes version _ keeps =>
      obtain ⟨hhtml, hversion⟩ := hserves.fetched fetches
      obtain rfl := Option.some.inj (version.symm.trans hversion)
      obtain ⟨hwritten, hothers⟩ := Disk.file?_of_writeText keeps
      rw [hhtml] at catalog
      exact .inr (.inl ⟨(agrees_of_publishes catalog publishes).congr (hothers _ hne).symm, hwritten⟩)
  | unkept _ _ _ f path => exact .inr (.inr ⟨f, path, rfl⟩)

-- The version file is missing, or holds the version of an edition whose catalog the output holds.
def Synced (editions : Edition → Prop) (output versionFile : Path) (d : Disk) : Prop :=
  d.file? versionFile = none ∨ ∃ e, editions e ∧ Agrees d output e ∧
    d.file? versionFile = some (Text.Utf8.encode e.version.toList)

variable {editions : Edition → Prop}

theorem Synced.congr (h : Synced editions output versionFile d) (houtput : d'.file? output = d.file? output)
    (hversion : d'.file? versionFile = d.file? versionFile) : Synced editions output versionFile d' := by
  refine h.imp hversion.trans ?_
  rintro ⟨e, he, hagrees, hfile⟩
  exact ⟨e, he, hagrees.congr houtput.symm, hversion.trans hfile⟩

theorem disk_of_updates (hserves : Serves r.web e) (htagged : e.Tagged) (hne : output ≠ versionFile)
    (hupdates : r.Updates output versionFile) (hsound : (run r.web d r.args).crash = none) :
    (r.disk d = d ∧ (r.Succeeds d → r.Unchanged d)) ∨
    Agrees (r.disk d) output e ∧ (r.disk d).file? versionFile = some (Text.Utf8.encode e.version.toList) := by
  obtain ⟨url, force, hrequest⟩ := hupdates
  rcases run_does r.web d r.args with ⟨hnone, -⟩ | ⟨c, res, hc, hdoes, hok, htold⟩
  · exact absurd (hrequest d) (hnone _)
  · obtain rfl : c = .update url output versionFile force := by
      rw [hrequest d] at hc
      exact (Request.run.inj hc).symm
    rcases hdoes.pair hserves htagged hne with ⟨hsame, hfetch⟩ | hpair | ⟨f, path, hres⟩
    · exact .inl ⟨hsame, fun hstatus => ⟨url, output, versionFile, force, hc, hfetch (hok.1 hstatus)⟩⟩
    · exact .inr hpair
    · cases htold.1 hsound _ hres

theorem crash_of_succeeds (h : r.Succeeds d) : (run r.web d r.args).crash = none := by
  unfold Run.Succeeds at h
  rcases run_does r.web d r.args with ⟨hnone, -⟩ | ⟨c, res, hc, hdoes, hok, htold⟩
  · cases hrequest : Request.ofLine d r.args with
    | run c => exact absurd hrequest (hnone c)
    | help g => rw [run, hrequest]
    | wrong g f => rw [run, hrequest]
  · refine htold.2 fun e he => ?_
    cases he.symm.trans (hok.1 h)

theorem Intact.synced (h : Intact editions output versionFile d) (htagged : ∀ e, editions e → e.Tagged)
    (hne : output ≠ versionFile) : Synced editions output versionFile d := by
  induction h with
  | missing missing => exact .inl missing
  | @downloaded d r e edition serves updates succeeds sent =>
      rcases disk_of_updates serves (htagged e edition) hne updates (crash_of_succeeds succeeds) with
        ⟨-, hunchanged⟩ | ⟨hagrees, hfile⟩
      · exact absurd (hunchanged succeeds) sent
      · exact .inr ⟨e, edition, hagrees, hfile⟩
  | @updated d r e _ edition serves updates sound ih =>
      rcases disk_of_updates serves (htagged e edition) hne updates sound with ⟨hsame, -⟩ | ⟨hagrees, hfile⟩
      · rwa [hsame]
      · exact .inr ⟨e, edition, hagrees, hfile⟩
  | apart _ sameOutput sameVersion ih => exact ih.congr sameOutput sameVersion

theorem update_current (editions : Edition → Prop) (htagged : ∀ e, editions e → e.Tagged)
    (hdistinct : ∀ e e', editions e → editions e' → e.version = e'.version → e = e')
    (hne : output ≠ versionFile) (hedition : editions e) (hserves : Serves r.web e)
    (hupdates : r.Updates output versionFile) (hsucceeds : r.Succeeds d)
    (hintact : r.Unchanged d → Intact editions output versionFile d)
    (hfingerprint : ∀ s t, (Spec.ofPage e.html).2 = .ok s → Spec.load (r.disk d) output = .ok t →
      t.fingerprint = s.fingerprint → t = s) : Current (r.disk d) output e := by
  have hagrees : Agrees (r.disk d) output e := by
    rcases disk_of_updates hserves (htagged e hedition) hne hupdates (crash_of_succeeds hsucceeds) with
      ⟨hsame, hunchanged⟩ | ⟨hagrees, -⟩
    · have hsynced := (hintact (hunchanged hsucceeds)).synced htagged hne
      obtain ⟨url, force, hrequest⟩ := hupdates
      obtain ⟨url', output', versionFile', force', hrequest', hfetch⟩ := hunchanged hsucceeds
      rw [hrequest d] at hrequest'
      cases hrequest'
      have hkept := hserves.asked hfetch
      rw [hsame]
      rcases hsynced with hmissing | ⟨e', he', hagrees, hfile⟩
      · simpa [hmissing] using file?_of_keptVersion hkept
      · have hversion := ((htagged e' he').kept hfile).symm.trans hkept
        obtain rfl := hdistinct e' e he' hedition (by simpa using hversion)
        exact hagrees
    · exact hagrees
  obtain ⟨s, t, hs, ht, hst⟩ := hagrees
  exact ⟨s, hs, hfingerprint s t hs ht hst ▸ ht⟩

namespace Shared

open Tracked (site asks specFile tagFile catalog saved left)

def edition : Edition := ⟨blank, "v1"⟩

def otherFile : Path := ⟨false, ["b.json"]⟩

def otherRun : Run := ⟨site, ["update-spec", "-o", "b.json"]⟩

theorem asks_iff (v : Page.Visit) : asks v = true ↔ v.headers = [("If-None-Match", .str "v1")] := by
  unfold asks
  split
  · rename_i h
    simp [h]
  · rename_i h
    simp only [Bool.false_eq_true, false_iff]
    exact h _ _

theorem serves : Serves site edition := by
  refine ⟨fun v s hs _ hhigh => ?_, fun v s hs => ?_⟩
  · unfold site at hs
    split at hs <;> cases hs
    · exact absurd hhigh (by decide)
    · exact ⟨rfl, rfl⟩
  · unfold site at hs
    split at hs
    · rename_i hasks
      cases hs
      exact iff_of_true rfl ((asks_iff v).1 hasks)
    · rename_i hasks
      cases hs
      exact iff_of_false (by decide) fun h => hasks ((asks_iff v).2 h)

theorem tagged : edition.Tagged := ⟨by decide, by decide +kernel, by simp [edition]⟩

theorem ofLine_otherRun (d : Disk) :
    Request.ofLine d otherRun.args = .run (.update Page.documentationUrl otherFile tagFile false) := rfl

theorem file?_saved : saved.file? specFile = some catalog := rfl

theorem file?_left : left.file? specFile = some catalog := rfl

theorem keptVersion_left : Page.keptVersion left tagFile = .ok (some "v1") := tagged.kept rfl

theorem updated_left (path : Path) :
    updated site left Page.documentationUrl path tagFile false = (.ok (), left) :=
  updated_unchanged keptVersion_left rfl

end Shared

-- Both runs succeed. The second one is told that the page is unchanged since the first one, which wrote its
-- catalog elsewhere, and leaves nothing at its output.
theorem missing_output : Serves Tracked.site Shared.edition ∧ Shared.edition.Tagged ∧
    Tracked.run.Succeeds .empty ∧ Shared.otherRun.Succeeds (Tracked.run.disk .empty) ∧
    (Shared.otherRun.disk (Tracked.run.disk .empty)).file? Shared.otherFile = none := by
  obtain ⟨hdisk, hsucceeds⟩ := Tracked.disk_run
  have hother := run_update Tracked.site (Shared.ofLine_otherRun Tracked.left)
  rw [Shared.updated_left] at hother
  have hleft : Shared.otherRun.disk Tracked.left = Tracked.left := hother.1
  refine ⟨Shared.serves, Shared.tagged, hsucceeds, ?_⟩
  rw [hdisk, hleft]
  exact ⟨hother.2.2 rfl, rfl⟩

theorem unchanged_output : Tracked.run.Unchanged Tracked.left ∧
    Current (Tracked.run.disk Tracked.left) Tracked.specFile Shared.edition := by
  obtain ⟨hdisk, hsucceeds⟩ := Tracked.disk_run
  have hagain := run_update Tracked.site (Tracked.ofLine_run Tracked.left)
  rw [Shared.updated_left] at hagain
  have hleft : Tracked.run.disk Tracked.left = Tracked.left := hagain.1
  have hupdates : Tracked.run.Updates Tracked.specFile Tracked.tagFile := ⟨_, _, Tracked.ofLine_run⟩
  have hintact : Intact (· = Shared.edition) Tracked.specFile Tracked.tagFile Tracked.left :=
    hdisk ▸ .updated (.missing rfl) rfl Shared.serves hupdates (crash_of_succeeds hsucceeds)
  refine ⟨⟨_, _, _, _, Tracked.ofLine_run _, _, Shared.keptVersion_left, rfl⟩,
    update_current (· = Shared.edition) (fun _ h => h ▸ Shared.tagged) (fun _ _ h h' _ => h.trans h'.symm)
      (by decide) rfl Shared.serves hupdates (hagain.2.2 rfl) (fun _ => hintact) fun s t hs ht _ => ?_⟩
  have hblank : (Spec.ofPage blank).2 = .ok ⟨[], []⟩ := congrArg Prod.snd ofPage_blank
  obtain ⟨hproper, hrefs⟩ := Spec.proper_ofPage hblank
  have hload : Spec.load Tracked.left Tracked.specFile = .ok ⟨[], []⟩ :=
    Spec.load_congr (Shared.file?_saved.trans Shared.file?_left.symm)
      (Spec.load_of_save hproper hrefs Tracked.save_blank)
  rw [hleft, hload] at ht
  cases ht
  cases hs.symm.trans hblank
  rfl

end CommandLine

end BotApi
