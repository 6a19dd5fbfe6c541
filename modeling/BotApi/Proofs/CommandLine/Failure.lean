import BotApi.Proofs.CommandLine.Effect
import Mathlib
/-!
Runs that end with an error which the program tells leave every file alone, and what a version file holds
is the version of a page that could be compiled. Files are told apart by paths as they are spelled.
-/

namespace BotApi.CommandLine

open Text (Path)

variable {web : Page.Web} {d d' : Disk} {args : List String} {p : Path} {c : Command}

theorem Command.Does.same_of_told {e : Error} (h : c.Does web d (.error e) d') (he : isTold e = true) :
    d' = d := by
  cases h with
  | stopped => rfl
  | unkept => cases he

theorem disk_of_told (hcrash : (run web d args).crash = none) (hstatus : (run web d args).status ≠ 0) :
    (run web d args).scene.disk = d := by
  rcases run_does web d args with ⟨-, hsame⟩ | ⟨c, r, -, hdoes, hok, htold⟩
  · exact hsame
  · cases r with
    | ok u => exact absurd (hok.2 rfl) hstatus
    | error e => exact hdoes.same_of_told (htold.1 hcrash e rfl)

def Command.output? : Command → Option Path
  | .update _ output _ _ | .compile _ output => some output
  | .explore _ _ => none

theorem Command.Does.file? {r : Except Error Unit} (h : c.Does web d r d') (hp : c.output? ≠ some p) :
    d'.file? p = d.file? p ∨ ∃ url output force page s v, c = .update url output p force ∧
      Fetches web d url p force (some page) ∧ (Spec.ofPage page.html).2 = .ok s ∧
      page.version = some v ∧ d'.file? p = some (Text.Utf8.encode v.toList) := by
  have hne {output : Path} (h : some output ≠ some p) : p ≠ output := fun heq => h (congrArg some heq.symm)
  cases h with
  | stopped | shown | unchanged => exact .inl rfl
  | compiled _ publishes | untagged _ _ publishes | unkept _ _ publishes =>
      exact .inl (publishes.file? (hne hp))
  | @tagged url output versionFile force page s d₁ _ v fetches catalog publishes version _ keeps =>
      obtain ⟨hwritten, hothers⟩ := Disk.file?_of_writeText keeps
      by_cases hfile : p = versionFile
      · subst hfile
        exact .inr ⟨url, output, force, page, s, v, rfl, fetches, catalog, version, hwritten⟩
      · exact .inl ((hothers p hfile).trans (publishes.file? (hne hp)))

structure Run where
  web : Page.Web
  args : List String

namespace Run

def disk (r : Run) (d : Disk) : Disk := (run r.web d r.args).scene.disk

def after (d : Disk) (rs : List Run) : Disk := rs.foldl (fun d r => r.disk d) d

theorem after_concat (d : Disk) (rs : List Run) (r : Run) : after d (rs ++ [r]) = r.disk (after d rs) := by
  simp [after]

def Publishes (r : Run) (p : Path) : Prop :=
  ∃ d c, Request.ofLine d r.args = .run c ∧ c.output? = some p

def Fetched (r : Run) (d : Disk) (p : Path) (v : String) : Prop :=
  ∃ url output force page s, Request.ofLine d r.args = .run (.update url output p force) ∧
    Fetches r.web d url p force (some page) ∧ page.version = some v ∧ (Spec.ofPage page.html).2 = .ok s

variable {r : Run}

theorem file?_disk (r : Run) (d : Disk) (hp : ¬ r.Publishes p) : (r.disk d).file? p = d.file? p ∨
    ∃ v, r.Fetched d p v ∧ (r.disk d).file? p = some (Text.Utf8.encode v.toList) := by
  rcases run_does r.web d r.args with ⟨-, hsame⟩ | ⟨c, res, hrequest, hdoes, -⟩
  · exact .inl (congrArg (·.file? p) hsame)
  · refine (hdoes.file? fun hc => hp ⟨d, c, hrequest, hc⟩).imp_right ?_
    rintro ⟨url, output, force, page, s, v, rfl, fetches, catalog, version, hfile⟩
    exact ⟨v, ⟨url, output, force, page, s, hrequest, fetches, version, catalog⟩, hfile⟩

def Vouched (d : Disk) (rs : List Run) (p : Path) (v : String) : Prop :=
  ∃ before r later, rs = before ++ r :: later ∧ r.Fetched (after d before) p v

theorem file?_after (d : Disk) (rs : List Run) (hrs : ∀ r ∈ rs, ¬ r.Publishes p) :
    (after d rs).file? p = d.file? p ∨
      ∃ v, Vouched d rs p v ∧ (after d rs).file? p = some (Text.Utf8.encode v.toList) := by
  induction rs using List.reverseRecOn with
  | nil => exact .inl rfl
  | append_singleton rs r ih =>
      rw [after_concat]
      rcases file?_disk r (after d rs) (hrs r (by simp)) with hsame | ⟨v, hfetched, hfile⟩
      · rw [hsame]
        refine (ih fun r hr => hrs r (by simp [hr])).imp_right ?_
        rintro ⟨v, ⟨before, r', later, rfl, hfetched⟩, hfile⟩
        exact ⟨v, ⟨before, r', later ++ [r], by simp, hfetched⟩, hfile⟩
      · exact .inr ⟨v, ⟨rs, r, [], rfl, hfetched⟩, hfile⟩

end Run

theorem failed_run_keeps_files :
    (∀ (web : Page.Web) (d : Disk) (args : List String), (run web d args).crash = none →
      (run web d args).status ≠ 0 → (run web d args).scene.disk = d) ∧
    ∀ (rs : List Run) (p : Path), (∀ r ∈ rs, ¬ r.Publishes p) →
      ∀ b, (Run.after .empty rs).file? p = some b →
        ∃ v, Run.Vouched .empty rs p v ∧ b = Text.Utf8.encode v.toList := by
  refine ⟨fun web d args => disk_of_told, fun rs p hrs b hb => ?_⟩
  rcases Run.file?_after .empty rs hrs with hsame | ⟨v, hvouched, hfile⟩
  · rw [hsame] at hb
    cases hb
  · rw [hfile] at hb
    exact ⟨v, hvouched, (Option.some.inj hb).symm⟩

def blank : String := "<div id=\"dev_page_content\"><h3>Getting updates</h3></div>"

theorem ofPage_blank : Spec.ofPage blank = ([], .ok ⟨[], []⟩) := by cbv

namespace Tracked

def asks (v : Page.Visit) : Bool :=
  match v.headers with
  | [(name, .str version)] => name == "If-None-Match" && version == "v1"
  | _ => false

def site : Page.Web := fun v =>
  if asks v then .ok ⟨304, "", []⟩ else .ok ⟨200, blank, [("ETag", .str "v1")]⟩

def specFile : Path := ⟨false, ["a.json"]⟩

def tagFile : Path := ⟨false, [".tg-bot-api-etag"]⟩

def run : Run := ⟨site, ["update-spec", "-o", "a.json"]⟩

def catalog : List UInt8 := Text.Utf8.encode ((Spec.mk [] []).toJson ++ "\n").toList

def saved : Disk := ⟨[(specFile, catalog)], []⟩

def left : Disk := ⟨[(specFile, catalog), (tagFile, Text.Utf8.encode "v1".toList)], []⟩

theorem ofLine_run (d : Disk) :
    Request.ofLine d run.args = .run (.update Page.documentationUrl specFile tagFile false) := rfl

theorem save (s : Spec) : s.save .empty specFile =
    .ok ⟨[(specFile, Text.Utf8.encode (s.toJson ++ "\n").toList)], []⟩ := rfl

theorem save_blank : (Spec.mk [] []).save .empty specFile = .ok saved := save _

theorem keepVersion_saved (b : List UInt8) : Page.keepVersion ⟨[(specFile, b)], []⟩ tagFile "v1" =
    .ok ⟨[(specFile, b), (tagFile, Text.Utf8.encode "v1".toList)], []⟩ := rfl

theorem updated_empty : updated site .empty Page.documentationUrl specFile tagFile false = (.ok (), left) := by
  have hpublish := Spec.publish_new ofPage_blank rfl (save ⟨[], []⟩)
  have hpage : (Page.download site (.since none Page.documentationUrl Page.defaultTimeout)).2 =
      .ok (some ⟨blank, some "v1"⟩) := rfl
  rw [updated_page rfl hpage hpublish]
  have hkeep : Page.keepVersion saved tagFile "v1" = .ok left := keepVersion_saved catalog
  change kept saved tagFile (some "v1") = _
  simp [kept, hkeep]

theorem disk_run : run.disk .empty = left ∧ (CommandLine.run site .empty run.args).status = 0 := by
  have hrun := run_update site (ofLine_run .empty)
  rw [updated_empty] at hrun
  exact ⟨hrun.1, hrun.2.2 rfl⟩

theorem not_publishes : ¬ run.Publishes tagFile := by
  rintro ⟨d, c, hc, hout⟩
  cases (ofLine_run d).symm.trans hc
  exact absurd hout (by decide)

end Tracked

theorem version_kept : (∃ v, Run.Vouched .empty [Tracked.run] Tracked.tagFile v ∧
      Text.Utf8.encode "v1".toList = Text.Utf8.encode v.toList) ∧
    (run (fun _ => .ok ⟨500, "", []⟩) Tracked.left ["update-spec", "--force"]).scene.disk = Tracked.left := by
  obtain ⟨htold, hvouched⟩ := failed_run_keeps_files
  refine ⟨hvouched [Tracked.run] Tracked.tagFile (by simpa using Tracked.not_publishes) _ ?_,
    htold _ _ _ rfl (by decide +kernel)⟩
  change (Tracked.run.disk .empty).file? Tracked.tagFile = _
  rw [Tracked.disk_run.1]
  rfl

namespace Overwritten

def path : Path := ⟨false, [".tg-bot-api-etag"]⟩

def run : Run := ⟨fun _ => .ok ⟨200, blank, []⟩, ["update-spec", "-o", ".tg-bot-api-etag"]⟩

theorem ofLine_run : Request.ofLine .empty run.args = .run (.update Page.documentationUrl path path false) := rfl

theorem save (s : Spec) : s.save .empty path =
    .ok (Disk.empty.put path (Text.Utf8.encode (s.toJson ++ "\n").toList)) := rfl

theorem download_run (v : Page.Visit) : (Page.download run.web v).2 = .ok (some ⟨blank, none⟩) := rfl

theorem not_vouched (v : String) : ¬ Run.Vouched .empty [run] path v := by
  rintro ⟨before, r, later, hsplit, url, output, force, page, s, -, ⟨last, -, hpage⟩, hversion, -⟩
  cases before with
  | cons _ before => simp at hsplit
  | nil =>
      cases hsplit
      cases hpage
      cases hversion

end Overwritten

-- An update whose version file is its output leaves its catalog there if the page has no version.
theorem version_file_overwritten :
    Request.ofLine .empty Overwritten.run.args =
      .run (.update Page.documentationUrl Overwritten.path Overwritten.path false) ∧
    (Run.after .empty [Overwritten.run]).file? Overwritten.path =
      some (Text.Utf8.encode ((Spec.mk [] []).toJson ++ "\n").toList) ∧
    ∀ v, ¬ Run.Vouched .empty [Overwritten.run] Overwritten.path v := by
  refine ⟨rfl, ?_, Overwritten.not_vouched⟩
  change (CommandLine.run _ _ _).scene.disk.file? _ = _
  have hpublish := Spec.publish_new ofPage_blank rfl (Overwritten.save ⟨[], []⟩)
  rw [(run_update _ Overwritten.ofLine_run).1, updated_page rfl (Overwritten.download_run _) hpublish]
  exact Disk.file?_put _ _ _

end BotApi.CommandLine
