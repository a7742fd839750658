import MergeDecoration.Proofs.Decoration.Rerun

/-!
After a whole run there is nothing left to do for the issues: the next run sees to the summary only.
-/
namespace MergeDecoration

attribute [local irreducible] Program.Completes

/-- Whether a discussion on a line of the diff is asked for. -/
def Request.opensLine : Request → Bool
  | .createDiscussion _ _ (.line _) => true
  | _ => false

theorem Request.opensLine_of_not_isOpening {r : Request} (h : r.isOpening = false) :
    r.opensLine = false := by
  cases r with
  | createDiscussion _ _ note => cases h
  | _ => rfl

namespace Snapshot

/-- The summary block opens no discussion on a line. -/
theorem not_opensLine_summaryRequests (s : Snapshot) (opened : Nat) :
    ∀ r ∈ s.summaryRequests opened, r.opensLine = false := by
  intro r hr
  cases hk : s.current? with
  | some k => exact Request.opensLine_of_not_isOpening (not_opening_summaryRequests hk r hr)
  | none =>
    rw [summaryRequests_of_none hk] at hr
    rcases List.mem_append.mp hr with hr | hr
    · exact Request.opensLine_of_not_isOpening (not_opening_retirement _ r hr)
    · rcases List.mem_cons.mp hr with rfl | hr
      · rfl
      · exact Request.opensLine_of_not_isOpening (not_opening_closing _ r hr)

/-- When no issue is due, the issue block opens nothing. -/
theorem not_isOpening_issuePlan {s : Snapshot} {changeset : Value → Int → Option String}
    (h : s.due changeset = []) : ∀ r ∈ s.issuePlan changeset, r.isOpening = false := by
  intro r hr
  rcases List.mem_append.mp hr with hr | hr
  · obtain ⟨i, hi, hr⟩ := List.mem_flatMap.mp hr
    rcases s.issueRequests_cases changeset s.representedKeys i with ⟨-, hquiet⟩ | ⟨hdue, -⟩
    · exact hquiet r hr
    · exact absurd hdue (List.filter_eq_nil_iff.mp h i hi)
  · exact not_opening_staleRequests r hr

theorem not_opensLine_plan {s : Snapshot} {changeset : Value → Int → Option String} {opened : Nat}
    (h : s.due changeset = []) : ∀ r ∈ s.plan changeset opened, r.opensLine = false := by
  intro r hr
  have hissues := fun r hr =>
    Request.opensLine_of_not_isOpening (not_isOpening_issuePlan h r hr)
  rw [plan, reconciliation] at hr
  rcases List.mem_append.mp hr with hr | hr
  · split at hr
    all_goals rcases List.mem_append.mp hr with hr | hr
    · exact s.not_opensLine_summaryRequests _ r hr
    · exact hissues r hr
    · exact hissues r hr
    · exact s.not_opensLine_summaryRequests _ r hr
  · rw [List.mem_singleton.mp hr]
    rfl

/-- When no issue is due and no thread is stale, a run reports that it did nothing for issues. -/
theorem outcome_of_settled {s : Snapshot} {changeset : Value → Int → Option String}
    (hdue : s.due changeset = []) (hstale : ∀ c ∈ s.discussions, s.isStale s.openKeys c = false) :
    (s.outcome changeset).created = 0 ∧ (s.outcome changeset).resolved = 0 ∧
      (s.outcome changeset).noted = 0 := by
  refine ⟨?_, ?_, ?_⟩
  · change s.analysis.openIssues.countP (s.isDue changeset s.representedKeys) = 0
    rw [List.countP_eq_length_filter]
    exact congrArg List.length hdue
  · apply List.countP_eq_zero.mpr
    intro c hc
    rw [hstale c hc, Bool.false_and]
    exact Bool.false_ne_true
  · apply List.countP_eq_zero.mpr
    intro c hc
    rw [hstale c hc, Bool.false_and]
    exact Bool.false_ne_true

/-- A run that finds no stale thread changes summaries only. -/
theorem not_concerns_plan {s : Snapshot} {p : Platform} {c : Classified} {r : Request}
    (h : s.Sees p) (hc : c ∈ s.discussions) (hkind : c.kind ≠ .summary)
    (hstale : s.isStale s.openKeys c = false) (hr : r ∈ s.plan p.changeset p.opened) :
    r.concerns c.discussion.id = false := by
  have hnil := h.filter_plan hc
  rw [treatment_of_ne_summary h.hasOwnIds hc hkind, staleRequests_of_isStale_eq_false hstale,
    List.filter_eq_nil_iff] at hnil
  exact (Bool.not_eq_true _).mp (hnil r hr)

end Snapshot

theorem Request.spares_of_not_isWrite {r : Request} (h : r.isWrite = false) (id : Value) :
    r.opensLine = false ∧ r.concerns id = false := by
  cases r with
  | mergeRequest | currentUser | commits | discussions | close | changeset => exact ⟨rfl, rfl⟩
  | _ => cases h

section

variable {w : Watched} {analysis : Analysis} {project : String} {config : Config} {number : Value}

/-- After a run that succeeded, the next run succeeds too, opens no discussion on a line, and
changes no discussion but those of summaries: no issue is resolved or noted. -/
theorem decorate_after_decorate (hp : w.platform.IsRegular)
    (ha : (analysis.withServer config).IsReadable)
    (hok : ((decorate analysis project config number).run
      (Watched.backend .never) w).1.isOk = true) :
    let once := (decorate analysis project config number).run (Watched.backend .never) w
    let again := (decorate analysis project config number).run (Watched.backend .never) once.2
    ∃ o asked, again.1 = .ok o ∧ again.2.requests = once.2.requests ++ asked ∧
      o.created = 0 ∧ o.resolved = 0 ∧ o.noted = 0 ∧
      (∀ r ∈ asked, r.opensLine = false) ∧
      ∀ d ∈ once.2.platform.discussions, ∀ c,
        d.classify w.platform.username (some analysis.projectKey) = .ok c → c.kind ≠ .summary →
        ∀ r ∈ asked, r.concerns d.id = false := by
  obtain ⟨hcommits, o, iid, s, hiid, hshows, hready, hcompletes⟩ := exists_of_decorate_ok hok
  have hsound := hshows.sound hp ha hready
  obtain ⟨records, honce⟩ := Program.run_of_completes hcompletes
  rw [Platform.after_append,
    Platform.after_of_not_isWrite (s.not_isWrite_reads project iid)] at honce
  obtain ⟨threads, sums, h, -⟩ := hsound.halfway_all
  intro once again
  have hplatform : once.2.platform =
      w.platform.after (s.plan w.platform.changeset w.platform.opened) := by
    rw [show once = _ from honce]
  obtain ⟨records', hagain⟩ := run_again project h hcommits hiid hshows hplatform
  have hdue := h.due_again_of_all rfl
  have hstale := fun k hk => h.isStale_again (k := k) rfl hk
  obtain ⟨hcreated, hresolved, hnoted⟩ := Snapshot.outcome_of_settled hdue hstale
  have hfirst : again.1 = .ok _ := congrArg Prod.fst hagain
  refine ⟨_, s.reads project iid ++ s.nextPlan once.2.platform, hfirst, ?_,
    hcreated, hresolved, hnoted, ?_, ?_⟩
  · rw [show again = _ from hagain, hplatform]
  · intro r hr
    rcases List.mem_append.mp hr with hr | hr
    · exact (Request.spares_of_not_isWrite (s.not_isWrite_reads project iid r hr) .null).1
    · rw [hplatform] at hr
      refine Snapshot.not_opensLine_plan ?_ r hr
      rw [Platform.changeset_after]
      exact hdue
  · intro d hd c hc hkind r hr
    rcases List.mem_append.mp hr with hr | hr
    · exact (Request.spares_of_not_isWrite (s.not_isWrite_reads project iid r hr) d.id).2
    · rw [hplatform] at hd hr
      rw [← hshows.username, ← hshows.projectKey] at hc
      have hmem : c ∈ (s.again _).discussions :=
        List.mem_filterMap.mpr ⟨d, hd, Snapshot.reread_of_classify hc⟩
      have hspared := Snapshot.not_concerns_plan h.sees hmem hkind (hstale c hmem) hr
      rwa [Discussion.discussion_of_classify hc] at hspared

end

/-- Two runs on the merge request. -/
theorem decorate_after_decorate_sample :
    let once := (decorate sampleReport "g/p" []).run (Watched.backend .never) sampleWatched
    let again := (decorate sampleReport "g/p" []).run (Watched.backend .never) once.2
    ∃ o asked, again.1 = .ok o ∧ again.2.requests = once.2.requests ++ asked ∧
      o.created = 0 ∧ o.resolved = 0 ∧ o.noted = 0 ∧
      (∀ r ∈ asked, r.opensLine = false) ∧
      ∀ d ∈ once.2.platform.discussions, ∀ c,
        d.classify (.text "sonar-bot") (some "p k") = .ok c → c.kind ≠ .summary →
        ∀ r ∈ asked, r.concerns d.id = false :=
  decorate_after_decorate isRegular_sampleWatched isReadable_sampleReport (by decide +kernel)

end MergeDecoration
