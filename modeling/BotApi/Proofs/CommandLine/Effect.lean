import BotApi.CommandLine.Command
import BotApi.Proofs.Disk
/-!
What a run of the program does to the files: a command stops before it writes anything, or it publishes
the catalog of a page, and an update then keeps the version that the page came with.
-/

namespace BotApi

open Text (Path)

namespace Spec

inductive Publishes (d : Disk) (p : Path) (s : Spec) : Disk → Prop
  | held {t : Spec} (loads : load d p = .ok t) (same : t.fingerprint = s.fingerprint) : Publishes d p s d
  | saved {d' : Disk} (saves : s.save d p = .ok d') : Publishes d p s d'

variable {d d' : Disk} {p q : Path} {s : Spec} {html : String}

theorem load_of_heldFingerprint {f : String} (h : (heldFingerprint d p).2 = .ok (some f)) :
    ∃ t, load d p = .ok t ∧ t.fingerprint = f := by
  unfold heldFingerprint at h
  split at h
  · split at h
    · rename_i t hload
      cases h
      exact ⟨t, hload, rfl⟩
    · cases h
    · cases h
  · cases h

theorem published_cases {r : Published} (h : (publish d p html).2 = .ok r) : (ofPage html).2 = .ok r.spec ∧
    ((r.written = false ∧ r.disk = d ∧ (heldFingerprint d p).2 = .ok (some r.spec.fingerprint)) ∨
      (r.written = true ∧ r.spec.save d p = .ok r.disk ∧
        (heldFingerprint d p).2 ≠ .ok (some r.spec.fingerprint))) := by
  unfold publish Noted.followedBy at h
  split at h
  · cases h
  · rename_i s hs
    unfold publishTo Noted.followedBy at h
    split at h
    · cases h
    · rename_i held hheld
      dsimp only at h
      split at h
      · rename_i hsame
        cases h
        exact ⟨hs, .inl ⟨rfl, rfl, hsame ▸ hheld⟩⟩
      · rename_i hother
        obtain ⟨d', hd', rfl⟩ := ok_of_map h
        exact ⟨hs, .inr ⟨rfl, hd', by simpa [hheld] using hother⟩⟩

theorem publishes_of_publish {r : Published} (h : (publish d p html).2 = .ok r) :
    (ofPage html).2 = .ok r.spec ∧ Publishes d p r.spec r.disk := by
  obtain ⟨hs, ⟨-, hdisk, hheld⟩ | ⟨-, hsave, -⟩⟩ := published_cases h
  · obtain ⟨t, ht, hfingerprint⟩ := load_of_heldFingerprint hheld
    rw [hdisk]
    exact ⟨hs, .held ht hfingerprint⟩
  · exact ⟨hs, .saved hsave⟩

theorem publish_eq {held : Option String} (hpage : (ofPage html).2 = .ok s) (hheld : (heldFingerprint d p).2 = .ok held) :
    (publish d p html).2 =
      if held = some s.fingerprint then .ok ⟨s, d, false⟩ else (save d p s).map fun d => ⟨s, d, true⟩ := by
  simp only [publish, publishTo, Noted.followedBy, hpage, hheld]
  split <;> rfl

theorem publish_new {notes : List LogEntry} (hpage : ofPage html = (notes, .ok s)) (hnew : d.holds p = false)
    (hsave : s.save d p = .ok d') : (publish d p html).2 = .ok ⟨s, d', true⟩ := by
  have hheld : (heldFingerprint d p).2 = .ok none := by simp [heldFingerprint, hnew]
  rw [publish_eq (congrArg Prod.snd hpage) hheld, if_neg (by simp), hsave]
  rfl

theorem file?_of_save (h : s.save d p = .ok d') (hq : q ≠ p) : d'.file? q = d.file? q :=
  (Disk.file?_of_writeText h).2 q hq

theorem Publishes.file? (h : Publishes d p s d') (hq : q ≠ p) : d'.file? q = d.file? q := by
  cases h with
  | held => rfl
  | saved saves => exact file?_of_save saves hq

end Spec

theorem Page.file_of_keepVersion {d : Disk} {p : Path} {v : String} {e : Error}
    (h : Page.keepVersion d p v = .error e) : ∃ f path, e = .file f path := by
  unfold Page.keepVersion Disk.makeParents Disk.writeText at h
  cases hmake : d.makeDirectory p.parent with
  | error f =>
      rw [hmake] at h
      cases h
      exact ⟨f, _, rfl⟩
  | ok d₁ =>
      rw [hmake] at h
      dsimp only [Except.bind] at h
      split at h
      · cases h
      · rename_i f _
        cases h
        exact ⟨f, _, rfl⟩

namespace CommandLine

def Fetches (web : Page.Web) (d : Disk) (url : String) (versionFile : Path) (force : Bool)
    (page : Option Page.Download) : Prop :=
  ∃ last, (if force then last = none else Page.keptVersion d versionFile = .ok last) ∧
    (Page.download web (.since last url Page.defaultTimeout)).2 = .ok page

inductive Command.Does (web : Page.Web) (d : Disk) : Command → Except Error Unit → Disk → Prop
  | stopped {c : Command} (e : Error) : Does web d c (.error e) d
  | shown (spec : Path) (method : Option String) : Does web d (.explore spec method) (.ok ()) d
  | compiled {page output : Path} {html : String} {s : Spec} {d₁ : Disk}
      (catalog : (Spec.ofPage html).2 = .ok s) (publishes : s.Publishes d output d₁) :
      Does web d (.compile page output) (.ok ()) d₁
  | unchanged {url : String} {output versionFile : Path} {force : Bool}
      (fetches : Fetches web d url versionFile force none) :
      Does web d (.update url output versionFile force) (.ok ()) d
  | untagged {url : String} {output versionFile : Path} {force : Bool} {page : Page.Download}
      {s : Spec} {d₁ : Disk} (fetches : Fetches web d url versionFile force (some page))
      (catalog : (Spec.ofPage page.html).2 = .ok s) (publishes : s.Publishes d output d₁)
      (version : page.version.getD "" = "") :
      Does web d (.update url output versionFile force) (.ok ()) d₁
  | tagged {url : String} {output versionFile : Path} {force : Bool} {page : Page.Download}
      {s : Spec} {d₁ d₂ : Disk} {v : String} (fetches : Fetches web d url versionFile force (some page))
      (catalog : (Spec.ofPage page.html).2 = .ok s) (publishes : s.Publishes d output d₁)
      (version : page.version = some v) (nonempty : v ≠ "")
      (keeps : Page.keepVersion d₁ versionFile v = .ok d₂) :
      Does web d (.update url output versionFile force) (.ok ()) d₂
  | unkept {url : String} {output versionFile : Path} {force : Bool} {page : Page.Download}
      {s : Spec} {d₁ : Disk} (fetches : Fetches web d url versionFile force (some page))
      (catalog : (Spec.ofPage page.html).2 = .ok s) (publishes : s.Publishes d output d₁) (f : FileFault)
      (path : String) : Does web d (.update url output versionFile force) (.error (.file f path)) d₁

def kept (d : Disk) (versionFile : Path) : Option String → Except Error Unit × Disk
  | none => (.ok (), d)
  | some v => if v.isEmpty then (.ok (), d) else match Page.keepVersion d versionFile v with
      | .ok d' => (.ok (), d')
      | .error e => (.error e, d)

theorem kept_cases (d : Disk) (versionFile : Path) (version : Option String) :
    (version.getD "" = "" ∧ kept d versionFile version = (.ok (), d)) ∨
    ∃ v, version = some v ∧ v ≠ "" ∧
      ((∃ d', Page.keepVersion d versionFile v = .ok d' ∧ kept d versionFile version = (.ok (), d')) ∨
        ∃ f path, kept d versionFile version = (.error (.file f path), d)) := by
  cases version with
  | none => exact .inl ⟨rfl, rfl⟩
  | some v =>
      by_cases hv : v = ""
      · exact .inl ⟨hv, by simp [kept, hv]⟩
      · refine .inr ⟨v, rfl, hv, ?_⟩
        cases hkeep : Page.keepVersion d versionFile v with
        | ok d' => exact .inl ⟨d', rfl, by simp [kept, hv, hkeep]⟩
        | error e =>
            obtain ⟨f, path, rfl⟩ := Page.file_of_keepVersion hkeep
            exact .inr ⟨f, path, by simp [kept, hv, hkeep]⟩

def updated (web : Page.Web) (d : Disk) (url : String) (output versionFile : Path) (force : Bool) :
    Except Error Unit × Disk :=
  match if force then .ok none else Page.keptVersion d versionFile with
  | .error e => (.error e, d)
  | .ok last => match (Page.download web (.since last url Page.defaultTimeout)).2 with
      | .error e => (.error e, d)
      | .ok none => (.ok (), d)
      | .ok (some page) => match (Spec.publish d output page.html).2 with
          | .error e => (.error e, d)
          | .ok p => kept p.disk versionFile page.version

theorem fetches_of_download {web : Page.Web} {d : Disk} {url : String} {versionFile : Path} {force : Bool}
    {last : Option String} {page : Option Page.Download}
    (hlast : (if force then .ok none else Page.keptVersion d versionFile) = .ok last)
    (hpage : (Page.download web (.since last url Page.defaultTimeout)).2 = .ok page) :
    Fetches web d url versionFile force page := by
  refine ⟨last, ?_, hpage⟩
  cases force with
  | true => exact (Except.ok.inj hlast).symm
  | false => exact hlast

theorem updated_page {web : Page.Web} {d : Disk} {url : String} {output versionFile : Path} {force : Bool}
    {last : Option String} {page : Page.Download} {p : Spec.Published}
    (hlast : (if force then .ok none else Page.keptVersion d versionFile) = .ok last)
    (hpage : (Page.download web (.since last url Page.defaultTimeout)).2 = .ok (some page))
    (hpublish : (Spec.publish d output page.html).2 = .ok p) :
    updated web d url output versionFile force = kept p.disk versionFile page.version := by
  simp only [updated, hlast, hpage, hpublish]

theorem updated_unchanged {web : Page.Web} {d : Disk} {url : String} {output versionFile : Path}
    {force : Bool} {last : Option String}
    (hlast : (if force then .ok none else Page.keptVersion d versionFile) = .ok last)
    (hpage : (Page.download web (.since last url Page.defaultTimeout)).2 = .ok none) :
    updated web d url output versionFile force = (.ok (), d) := by
  simp only [updated, hlast, hpage]

theorem updated_does (web : Page.Web) (d : Disk) (url : String) (output versionFile : Path) (force : Bool) :
    Command.Does web d (.update url output versionFile force)
      (updated web d url output versionFile force).1 (updated web d url output versionFile force).2 := by
  unfold updated
  split
  · exact .stopped _
  · rename_i last hlast
    split
    · exact .stopped _
    · rename_i hpage
      exact .unchanged (fetches_of_download hlast hpage)
    · rename_i page hpage
      have fetches := fetches_of_download hlast hpage
      split
      · exact .stopped _
      · rename_i p hpublish
        obtain ⟨hcatalog, hpublishes⟩ := Spec.publishes_of_publish hpublish
        rcases kept_cases p.disk versionFile page.version with
          ⟨hnone, hkept⟩ | ⟨v, hversion, hv, ⟨d', hkeep, hkept⟩ | ⟨f, path, hkept⟩⟩
        · rw [hkept]
          exact .untagged fetches hcatalog hpublishes hnone
        · rw [hkept]
          exact .tagged fetches hcatalog hpublishes hversion hv hkeep
        · rw [hkept]
          exact .unkept fetches hcatalog hpublishes f path

namespace Job

variable {α β : Type} {d : Disk} {Q : Except Error β → Disk → Prop} {f : α → Job β}

def Ends (x : Job β) (d : Disk) (Q : Except Error β → Disk → Prop) : Prop :=
  ∀ s : Scene, s.disk = d → Q (x.run s).1 (x.run s).2.disk

theorem run_bind (x : Job α) (f : α → Job β) (s : Scene) : (x >>= f).run s =
    match x.run s with
    | (.ok a, s') => (f a).run s'
    | (.error e, s') => (.error e, s') := by
  rw [ExceptT.run_bind]
  change StateT.bind (ExceptT.run x) _ s = _
  unfold StateT.bind
  rcases x.run s with ⟨e | a, s'⟩ <;> rfl

namespace Ends

theorem pure {a : β} (h : Q (.ok a) d) : Ends (Pure.pure a) d Q := fun _ hs => hs ▸ h

theorem said {Q : Except Error Unit → Disk → Prop} {text : String} (h : Q (.ok ()) d) :
    Ends (say text) d Q := fun _ hs => hs ▸ h

theorem bind {x : Job α} {R : Except Error α → Disk → Prop} (h : Ends x d R)
    (ok : ∀ a d', R (.ok a) d' → Ends (f a) d' Q) (error : ∀ e d', R (.error e) d' → Q (.error e) d') :
    Ends (x >>= f) d Q := by
  intro s hs
  have h := h s hs
  rw [run_bind]
  rcases hx : x.run s with ⟨e | a, s'⟩
  · rw [hx] at h
    exact error e s'.disk h
  · rw [hx] at h
    exact ok a s'.disk h s' rfl

/-! Each step, and what goes on after it. -/

theorem get {f : Scene → Job β} (h : ∀ s : Scene, s.disk = d → Ends (f s) d Q) :
    Ends (MonadState.get >>= f) d Q := fun s hs => h s hs s hs

theorem changed {g : Scene → Scene} {f : PUnit → Job β} {d' : Disk}
    (hg : ∀ s : Scene, s.disk = d → (g s).disk = d') (h : Ends (f ⟨⟩) d' Q) :
    Ends (modify g >>= f) d Q := fun s hs => h (g s) (hg s hs)

theorem say {line : String} {f : Unit → Job β} (h : Ends (f ()) d Q) : Ends (Job.say line >>= f) d Q :=
  changed (fun _ hs => hs) h

theorem ofResult {r : Except Error α} (ok : ∀ a, r = .ok a → Ends (f a) d Q)
    (error : ∀ e, r = .error e → Q (.error e) d) : Ends (Job.ofResult r >>= f) d Q := by
  cases r with
  | ok a => exact ok a rfl
  | error e => exact fun _ hs => hs ▸ error e rfl

theorem ofNoted {n : Noted Error α} (ok : ∀ a, n.2 = .ok a → Ends (f a) d Q)
    (error : ∀ e, n.2 = .error e → Q (.error e) d) : Ends (Job.ofNoted n >>= f) d Q := by
  obtain ⟨notes, r⟩ := n
  cases r with
  | ok a => exact fun s hs => ok a rfl { s with notes := s.notes ++ notes } hs
  | error e => exact fun _ hs => hs ▸ error e rfl

theorem download {web : Page.Web} {v : Page.Visit} {f : Option Page.Download → Job β}
    (ok : ∀ page, (Page.download web v).2 = .ok page → Ends (f page) d Q)
    (error : ∀ e, (Page.download web v).2 = .error e → Q (.error e) d) :
    Ends (Job.download web v >>= f) d Q := by
  rw [Job.download, bind_assoc]
  exact changed (fun _ hs => hs) (ofNoted ok error)

theorem publish {output : Path} {html : String} {f : Bool → Job β}
    (ok : ∀ p, (Spec.publish d output html).2 = .ok p → Ends (f p.written) p.disk Q)
    (error : ∀ e, (Spec.publish d output html).2 = .error e → Q (.error e) d) :
    Ends (Job.publish output html >>= f) d Q := by
  rw [Job.publish, bind_assoc]
  refine get fun s hs => ?_
  rw [hs, bind_assoc]
  refine ofNoted (fun p hp => ?_) error
  rw [bind_assoc]
  refine changed (fun _ _ => rfl) ?_
  split
  · rw [bind_assoc]
    exact say (ok p hp)
  · exact ok p hp

end Ends

theorem keep_ends (versionFile : Path) (version : Option String) (d : Disk) :
    Ends (keep versionFile version) d fun r d' => (r, d') = kept d versionFile version := by
  unfold keep kept
  cases version with
  | none => exact .pure rfl
  | some v =>
      dsimp only
      split
      · exact .pure rfl
      · refine .get fun s hs => ?_
        rw [hs]
        refine .ofResult (fun d₁ hkeep => ?_) fun e hkeep => ?_
        · rw [hkeep]
          exact fun _ _ => rfl
        · rw [hkeep]

theorem update_ends (web : Page.Web) (d : Disk) (url : String) (output versionFile : Path)
    (force : Bool) : Ends (update web url output versionFile force) d fun r d' =>
      (r, d') = updated web d url output versionFile force := by
  have hpage (last : Option String)
      (hlast : (if force then .ok none else Page.keptVersion d versionFile) = .ok last)
      (f : Option Page.Download → Job Unit) (hnone : f none = say "No changes (not modified).")
      (hsome : ∀ page, f (some page) = do
        unless ← publish output page.html do say "No changes."
        keep versionFile page.version) :
      Ends (download web (.since last url Page.defaultTimeout) >>= f) d fun r d' =>
        (r, d') = updated web d url output versionFile force := by
    unfold updated
    rw [hlast]
    refine .download (fun page hpage => ?_) fun e he => ?_
    · dsimp only
      rw [hpage]
      cases page with
      | none =>
          rw [hnone]
          exact .said rfl
      | some page =>
          rw [hsome]
          refine .publish (fun p hp => ?_) fun e he => ?_
          · dsimp only
            rw [hp]
            split
            · exact keep_ends versionFile page.version p.disk
            · exact .say (keep_ends versionFile page.version p.disk)
          · dsimp only
            rw [he]
    · dsimp only
      rw [he]
  unfold update
  cases force with
  | true => exact hpage none rfl _ rfl fun _ => rfl
  | false =>
      refine .get fun s hs => ?_
      rw [hs]
      refine .ofResult (fun last hlast => hpage last hlast _ rfl fun _ => rfl) fun e he => ?_
      simp [updated, he]

theorem compile_does (web : Page.Web) (d : Disk) (page output : Path) :
    Ends (compile page output) d (Command.Does web d (.compile page output)) := by
  refine .get fun s hs => ?_
  rw [hs]
  refine .ofResult (fun html _ => .publish (fun p hp => ?_) fun e _ => .stopped e) fun e _ => .stopped e
  obtain ⟨hcatalog, hpublishes⟩ := Spec.publishes_of_publish hp
  split
  · exact .pure (.compiled hcatalog hpublishes)
  · exact .said (.compiled hcatalog hpublishes)

def Shows (x : Job β) : Prop := ∀ d, Ends x d fun _ d' => d' = d

theorem Shows.bind {x : Job α} (h : Shows x) (hf : ∀ a, Shows (f a)) : Shows (x >>= f) := fun d =>
  Ends.bind (h d) (fun a _ hd => hd ▸ hf a d) fun _ _ hd => hd

theorem Shows.forM {f : α → Job PUnit} (hf : ∀ a, Shows (f a)) (as : List α) : Shows (as.forM f) := by
  induction as with
  | nil => exact fun _ => .pure rfl
  | cons a as ih => exact (hf a).bind fun _ => ih

theorem shows_explore (path : Path) (method : Option String) : Shows (explore path method) := by
  have hline (line : String) : Shows (say line) := fun _ => .said rfl
  refine fun d => .get fun s _ => .ofResult (fun spec _ => ?_) fun _ _ => rfl
  split
  · exact .ofResult (fun os _ => ((Shows.forM (fun _ => hline _) os).bind fun _ => hline _) d) fun _ _ => rfl
  · exact .ofResult (fun os _ => Shows.forM (fun _ => hline _) os d) fun _ _ => rfl

theorem job_does (web : Page.Web) (d : Disk) (c : Command) : Ends (c.job web) d (c.Does web d) := by
  cases c with
  | update url output versionFile force =>
      intro s hs
      obtain ⟨hr, hd⟩ := Prod.mk.inj (update_ends web d url output versionFile force s hs)
      exact hr ▸ hd ▸ updated_does web d url output versionFile force
  | compile page output => exact compile_does web d page output
  | explore path method =>
      refine fun s hs => (shows_explore path method d s hs).symm ▸ ?_
      change Command.Does web d _ ((explore path method).run s).1 d
      rcases ((explore path method).run s).1 with e | u
      · exact .stopped e
      · exact .shown path method

end Job

theorem run_does (web : Page.Web) (d : Disk) (args : List String) :
    (∀ c, Request.ofLine d args ≠ .run c) ∧ (run web d args).scene.disk = d ∨
    ∃ c r, Request.ofLine d args = .run c ∧ c.Does web d r (run web d args).scene.disk ∧
      ((run web d args).status = 0 ↔ r = .ok ()) ∧
      ((run web d args).crash = none ↔ ∀ e, r = .error e → isTold e = true) := by
  cases hrequest : Request.ofLine d args with
  | help g => exact .inl ⟨nofun, by rw [run, hrequest]⟩
  | wrong g f => exact .inl ⟨nofun, by rw [run, hrequest]⟩
  | run c =>
      have hdoes := Job.job_does web d c ⟨d, [], [], []⟩ rfl
      rcases hjob : (c.job web).run ⟨d, [], [], []⟩ with ⟨e | u, s⟩
      · rw [hjob] at hdoes
        refine .inr ⟨c, .error e, rfl, ?_⟩
        simp only [run, hrequest, hjob]
        cases htold : isTold e <;> simp [hdoes, htold]
      · rw [hjob] at hdoes
        refine .inr ⟨c, .ok (), rfl, ?_⟩
        simp only [run, hrequest, hjob]
        exact ⟨hdoes, by simp, by simp⟩

theorem run_update (web : Page.Web) {d : Disk} {args : List String} {url : String}
    {output versionFile : Path} {force : Bool}
    (h : Request.ofLine d args = .run (.update url output versionFile force)) :
    (run web d args).scene.disk = (updated web d url output versionFile force).2 ∧
      ((run web d args).status = 0 ↔ (updated web d url output versionFile force).1 = .ok ()) := by
  have hends := Job.update_ends web d url output versionFile force ⟨d, [], [], []⟩ rfl
  rw [run, h, ← hends]
  simp only [Command.job]
  rcases (Job.update web url output versionFile force).run ⟨d, [], [], []⟩ with ⟨e | u, s⟩
  · cases htold : isTold e <;> simp [htold]
  · simp

end CommandLine

end BotApi
