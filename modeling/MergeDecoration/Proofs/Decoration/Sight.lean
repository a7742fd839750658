import MergeDecoration.Proofs.Decoration.Failure
import MergeDecoration.Proofs.Program.Quiet

/-!
What a run sees of the discussions that it is shown. Of those that it leaves alone it sees nothing,
and of what others wrote below its own notes it sees only that it is there.
-/
namespace MergeDecoration

open Program

namespace Classified

/-- Whether a run on the project leaves a discussion alone. -/
def isIdle (c : Classified) (project : String) : Bool :=
  c.kind != .summary && !c.isLiveIssue project

theorem isIdle_iff {c : Classified} {project : String} :
    c.isIdle project = true ↔ c.IsIdle project := by
  rw [isIdle, Bool.and_eq_true, bne_iff_ne, Bool.not_eq_true', IsIdle]

/-- Two discussions in which a run of the user sees the same. -/
structure LooksLike (user : Value) (c k : Classified) : Prop where
  kind : k.kind = c.kind
  identity : k.identity = c.identity
  closed : k.closed = c.closed
  id : k.discussion.id = c.discussion.id
  first : Snapshot.firstNoteId k = Snapshot.firstNoteId c
  replies : k.discussion.replies.isEmpty = c.discussion.replies.isEmpty
  flag : k.discussion.hasNote user outdatedSummaryNote =
    c.discussion.hasNote user outdatedSummaryNote

variable {user : Value} {c k : Classified}

theorem looksLike_refl (user : Value) (c : Classified) : c.LooksLike user c :=
  ⟨rfl, rfl, rfl, rfl, rfl, rfl, rfl⟩

theorem LooksLike.isLiveIssue (h : c.LooksLike user k) (project : String) :
    k.isLiveIssue project = c.isLiveIssue project := by
  rw [Classified.isLiveIssue, Classified.isLiveIssue, h.kind, h.closed, h.identity]

theorem LooksLike.issueKey? (h : c.LooksLike user k) : k.issueKey? = c.issueKey? := by
  rw [Classified.issueKey?, Classified.issueKey?, h.identity]

end Classified

namespace Snapshot

variable {s : Snapshot} {cs cs' : List Classified} {f : Classified → Classified}

/-- The snapshot with other discussions. -/
def showing (s : Snapshot) (cs : List Classified) : Snapshot := { s with discussions := cs }

theorem createIssueNotes_showing (s : Snapshot) (cs : List Classified) (represented : List String)
    (issues : List Issue) :
    (s.showing cs).createIssueNotes represented issues = s.createIssueNotes represented issues := by
  induction issues with
  | nil => rfl
  | cons i rest ih =>
    rw [createIssueNotes, createIssueNotes, ih]
    rfl

/-- Discussions that are left alone are passed over. -/
theorem closeStale_filter (s : Snapshot) (keys : List String) (cs : List Classified) :
    s.closeStale keys (cs.filter (!·.isIdle s.analysis.projectKey)) = s.closeStale keys cs := by
  induction cs with
  | nil => rfl
  | cons c rest ih =>
    cases hidle : c.isIdle s.analysis.projectKey with
    | true =>
      have hlive := (Classified.isIdle_iff.mp hidle).2
      rw [List.filter_cons_of_neg (by rw [hidle]; decide), ih]
      conv_rhs => rw [closeStale]
      rw [hlive, Bool.not_false, Bool.true_or, if_pos rfl]
    | false =>
      rw [List.filter_cons_of_pos (by rw [hidle]; rfl), closeStale, closeStale, ih]

theorem closeStale_map (h : ∀ c : Classified, c.LooksLike s.username (f c)) (keys : List String)
    (cs : List Classified) : s.closeStale keys (cs.map f) = s.closeStale keys cs := by
  induction cs with
  | nil => rfl
  | cons c rest ih =>
    have hc := h c
    rw [List.map_cons, closeStale, closeStale, ih, hc.isLiveIssue, hc.issueKey?, hc.kind, hc.id]

theorem closeStale_showing (s : Snapshot) (shown : List Classified) (keys : List String)
    (cs : List Classified) : (s.showing shown).closeStale keys cs = s.closeStale keys cs := by
  induction cs with
  | nil => rfl
  | cons c rest ih =>
    rw [closeStale, closeStale, ih]
    rfl

theorem retireSummaries_map (h : ∀ c : Classified, c.LooksLike s.username (f c))
    (cs shown : List Classified) :
    (s.showing shown).retireSummaries (cs.map f) = s.retireSummaries cs := by
  induction cs with
  | nil => rfl
  | cons c rest ih =>
    have hc := h c
    have hfirst : (s.showing shown).retireSummary (f c) = s.retireSummary c := by
      have hflag : (s.showing shown).isFlagged (f c) = s.isFlagged c := hc.flag
      rw [retireSummary, retireSummary, hflag, hc.replies, hc.first, hc.id]
      rfl
    rw [List.map_cons, retireSummaries, retireSummaries, hfirst, ih]

theorem writeSummary_map (h : ∀ c : Classified, c.LooksLike s.username (f c))
    (hsummaries : (s.showing cs).summaries = s.summaries.map f) (live : List Classified)
    (body : String) :
    (s.showing cs).writeSummary (live.map f) body = s.writeSummary live body := by
  have hcreate : (s.showing cs).createSummary body = s.createSummary body := by
    rw [createSummary, createSummary, hsummaries, retireSummaries_map h]
    rfl
  have hedit : ∀ c, (s.showing cs).editSummary (live.map f).dropLast (f c) body =
      s.editSummary live.dropLast c body := by
    intro c
    rw [editSummary, editSummary, ← List.map_dropLast, retireSummaries_map h, (h c).id,
      (h c).first]
    rfl
  unfold writeSummary
  rw [hcreate, List.getLast?_map, show (s.showing cs).config = s.config from rfl]
  cases live.getLast? with
  | none => rfl
  | some c =>
    rw [Option.map_some]
    cases (s.config.get "summary_note_edit").holds with
    | true =>
      dsimp only
      rw [hedit c]
    | false => rfl

theorem reconcileSummary_map (h : ∀ c : Classified, c.LooksLike s.username (f c))
    (hsummaries : (s.showing cs).summaries = s.summaries.map f) :
    (s.showing cs).reconcileSummary = s.reconcileSummary := by
  have hflags : ∀ c,
      (do return !(← (liftM ((s.showing cs).isFlagged (f c)) : Program Bool)) : Program Bool) =
        (do return !(← (liftM (s.isFlagged c) : Program Bool))) := by
    intro c
    have hflag : (s.showing cs).isFlagged (f c) = s.isFlagged c := (h c).flag
    rw [hflag]
  have hclose : ∀ d, (s.showing cs).closeSummary d = s.closeSummary d := fun _ => rfl
  unfold reconcileSummary
  rw [hsummaries, filterM_map hflags]
  simp only [bind_assoc, pure_bind, writeSummary_map h hsummaries, hclose]
  rfl

/-- A run does the same on two snapshots if what it does not leave alone looks the same. -/
theorem write_eq_of_looksLike (h : ∀ c : Classified, c.LooksLike s.username (f c))
    (hcs : cs.filter (!·.isIdle s.analysis.projectKey) =
      (s.discussions.filter (!·.isIdle s.analysis.projectKey)).map f) :
    (s.showing cs).write = s.write := by
  -- What is not idle is all that is looked for.
  have hpart : ∀ q : Classified → Bool, (∀ c, q (f c) = q c) →
      (∀ c, q c = true → c.isIdle s.analysis.projectKey = false) →
      cs.filter q = (s.discussions.filter q).map f := by
    intro q hq hseen
    have hkeep : ∀ ds : List Classified,
        (ds.filter (!·.isIdle s.analysis.projectKey)).filter q = ds.filter q := by
      intro ds
      rw [List.filter_filter]
      apply List.filter_congr
      intro c _
      cases hc : q c with
      | true => rw [hseen c hc]; rfl
      | false => rfl
    rw [← hkeep, hcs, List.filter_map, show q ∘ f = q from funext hq, hkeep]
  have hlive := hpart (·.isLiveIssue s.analysis.projectKey) (fun c => (h c).isLiveIssue _) (by
    intro c hc
    rw [Classified.isIdle, hc, Bool.not_true, Bool.and_false])
  have hsummaries : (s.showing cs).summaries = s.summaries.map f :=
    hpart (·.kind == .summary) (fun c => by rw [(h c).kind]) (by
      intro c hc
      rw [Classified.isIdle, bne, hc, Bool.not_true, Bool.false_and])
  have hkeys : (s.showing cs).representedKeys = s.representedKeys := by
    rw [representedKeys, representedKeys]
    change (cs.filter (·.isLiveIssue s.analysis.projectKey)).filterMap _ = _
    rw [hlive, List.filterMap_map]
    exact List.filterMap_congr fun c _ => (h c).issueKey?
  have hstale : ∀ keys, (s.showing cs).closeStale keys cs = s.closeStale keys s.discussions := by
    intro keys
    rw [closeStale_showing, ← closeStale_filter, hcs, closeStale_map h, closeStale_filter]
  have hissues : (s.showing cs).reconcileIssues = s.reconcileIssues := by
    unfold reconcileIssues
    rw [hkeys, show (s.showing cs).discussions = cs from rfl]
    simp only [createIssueNotes_showing, hstale]
    rfl
  have hreconcile : (s.showing cs).reconcile = s.reconcile := by
    unfold reconcile
    rw [hissues, reconcileSummary_map h hsummaries]
    rfl
  unfold write
  rw [hreconcile]
  rfl

end Snapshot

theorem Program.lift_bind {α β : Type} (x : Except Fault α) (f : α → Except Fault β) :
    (liftM (x >>= f) : Program β) = (liftM x : Program α) >>= fun a => liftM (f a) := by
  cases x <;> rfl

theorem quiet_classifyAll (user : Value) (project : Option String) (ds : List Discussion) :
    (classifyAll user project ds).quiet = liftM (ds.mapM (·.classify user project)) := by
  induction ds with
  | nil => rfl
  | cons d ds ih =>
    rw [classifyAll, List.mapM_cons, Program.lift_bind, quiet_bind, quiet_lift]
    congr 1
    funext c
    rw [quiet_debug_bind, quiet_bind, ih, Program.lift_bind]
    rfl

/-- Without its log, a run that has read everything is the classification and then the writes. -/
theorem quiet_writing (g : Readings) (analysis : Analysis) (config : Config) :
    (g.writing analysis config).quiet =
      (liftM (g.discussions.mapM
        (·.classify g.user.username (some (analysis.withServer config).projectKey))) :
          Program (List Classified)) >>= fun cs => (g.snapshot analysis config cs).write.quiet := by
  rw [Readings.writing, quiet_bind, quiet_classifyAll]

/-- The same readings but for the discussions. -/
def Readings.showing (g : Readings) (ds : List Discussion) : Readings :=
  { g with discussions := ds }

/-- A run goes on in the same way from other discussions if they are classified as ones that give
it the same to do. -/
theorem quiet_writing_congr (g : Readings) {analysis : Analysis} {config : Config}
    {ds : List Discussion} {f : List Classified → List Classified}
    (hclassify : ds.mapM (·.classify g.user.username
        (some (analysis.withServer config).projectKey)) =
      f <$> g.discussions.mapM
        (·.classify g.user.username (some (analysis.withServer config).projectKey)))
    (hwrite : ∀ cs, (g.snapshot analysis config (f cs)).write =
      (g.snapshot analysis config cs).write) :
    ((g.showing ds).writing analysis config).quiet = (g.writing analysis config).quiet := by
  rw [quiet_writing, quiet_writing]
  dsimp only [Readings.showing]
  rw [hclassify, map_eq_pure_bind, Program.lift_bind, bind_assoc]
  congr 1
  funext cs
  rw [← hwrite cs]
  rfl

namespace Discussion

variable {d : Discussion} {user : Value} {project : String}

/-- Whether a run of the user on the project leaves the discussion alone. -/
def isIdle (d : Discussion) (user : Value) (project : String) : Bool :=
  match d.classify user (some project) with
  | .ok c => c.isIdle project
  | .error _ => false

theorem isIdle_of_classify {c : Classified} (h : d.classify user (some project) = .ok c) :
    d.isIdle user project = c.isIdle project := by
  rw [isIdle, h]

theorem exists_of_isIdle (h : d.isIdle user project = true) :
    ∃ c, d.classify user (some project) = .ok c ∧ c.isIdle project = true := by
  unfold isIdle at h
  cases hc : d.classify user (some project) with
  | ok c =>
    rw [hc] at h
    exact ⟨c, rfl, h⟩
  | error e =>
    rw [hc] at h
    cases h

/-- Whatever is classified without the idle discussions is classified with them. -/
theorem mapM_classify_filter (user : Value) (project : String) (ds : List Discussion) :
    (ds.filter (!·.isIdle user project)).mapM (·.classify user (some project)) =
      (fun cs => cs.filter (!·.isIdle project)) <$> ds.mapM (·.classify user (some project)) := by
  induction ds with
  | nil => rfl
  | cons d ds ih =>
    cases hidle : d.isIdle user project with
    | true =>
      obtain ⟨c, hc, hcidle⟩ := exists_of_isIdle hidle
      rw [List.filter_cons_of_neg (by rw [hidle]; decide), ih, List.mapM_cons, hc]
      cases ds.mapM (·.classify user (some project)) with
      | error e => rfl
      | ok cs =>
        refine congrArg Except.ok ?_
        dsimp only
        rw [List.filter_cons_of_neg (by rw [hcidle]; decide)]
    | false =>
      rw [List.filter_cons_of_pos (by rw [hidle]; rfl), List.mapM_cons, List.mapM_cons, ih]
      cases hc : d.classify user (some project) with
      | error e => rfl
      | ok c =>
        have hkept : c.isIdle project = false := by rw [← isIdle_of_classify hc, hidle]
        cases ds.mapM (·.classify user (some project)) with
        | error e => rfl
        | ok cs =>
          refine congrArg Except.ok ?_
          dsimp only
          rw [List.filter_cons_of_pos (by rw [hkept]; rfl)]

end Discussion

/-- Discussions that a run leaves alone make no difference to it. -/
theorem quiet_writing_filter (g : Readings) (analysis : Analysis) (config : Config) :
    ((g.showing (g.discussions.filter
      (!·.isIdle g.user.username (analysis.withServer config).projectKey))).writing
        analysis config).quiet = (g.writing analysis config).quiet := by
  apply quiet_writing_congr g (Discussion.mapM_classify_filter ..)
  intro cs
  refine Snapshot.write_eq_of_looksLike (s := g.snapshot analysis config cs) (f := id)
    (Classified.looksLike_refl _) ?_
  rw [List.map_id, List.filter_filter]
  exact List.filter_congr fun c _ => Bool.and_self _

end MergeDecoration
