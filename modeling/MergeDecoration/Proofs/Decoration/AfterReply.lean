import MergeDecoration.Proofs.Decoration.Reply

/-!
A run before and one after somebody has replied below a discussion. They ask the same, except that
the discussion that was replied to is not resolved or removed.
-/
namespace MergeDecoration

open Program

namespace Watched

variable {T : Request → List Request} {w v : Watched} {r u : Request}

/-- Two platforms that differ in their discussions at most, with new ids of which none is recast. -/
structure Twin (T : Request → List Request) (w v : Watched) : Prop where
  agrees : w.platform.Agrees v.platform
  opened : v.platform.opened = w.platform.opened
  spared : ∀ k, w.platform.opened ≤ k → (Platform.discussionId k).IsSpared T

theorem opened_answer_never (r : Request) (w : Watched) :
    ((backend .never).answer r w).2.platform.opened =
      w.platform.opened + if r.isOpening then 1 else 0 := Platform.opened_answer ..

theorem Twin.answer (h : w.Twin T v) (hr : u.isOpening = r.isOpening) :
    ((backend .never).answer r w).2.Twin T ((backend .never).answer u v).2 := by
  refine ⟨h.agrees.answer r u, ?_, fun k hk => h.spared k ?_⟩
  · rw [opened_answer_never, opened_answer_never, h.opened, hr]
  · rw [opened_answer_never] at hk
    omega

/-- Only the first platform is asked. -/
theorem Twin.answer_first (h : w.Twin T v) (hr : r.isOpening = false) :
    ((backend .never).answer r w).2.Twin T v := by
  refine ⟨h.agrees.answer r .currentUser, ?_, fun k hk => h.spared k ?_⟩
  · rw [opened_answer_never, hr, h.opened]
    rfl
  · rw [opened_answer_never] at hk
    omega

end Watched

namespace Program

variable {α α' : Type} {T : Request → List Request} {Q : α → α' → Prop} {prog : Program α}
  {prog' : Program α'} {w v : Watched}

/-- Beside each other, the second program asks what the first one asks, each request recast, and
ends with the same fault or with a result that goes together. -/
theorem Recast.run (h : prog.Recast T Q prog') (hw : w.Twin T v) :
    prog'.asked (Watched.backend .never) v =
        (prog.asked (Watched.backend .never) w).flatMap T ∧
      ((∃ f, (prog.run (Watched.backend .never) w).1 = .error f ∧
          (prog'.run (Watched.backend .never) v).1 = .error f) ∨
        ∃ a a', (prog.run (Watched.backend .never) w).1 = .ok a ∧
          (prog'.run (Watched.backend .never) v).1 = .ok a' ∧ Q a a') := by
  induction h generalizing w v with
  | done h => exact ⟨rfl, Or.inr ⟨_, _, rfl, rfl, h⟩⟩
  | stop e => exact ⟨rfl, Or.inl ⟨e, rfl, rfl⟩⟩
  | @logFirst l _ _ _ ih =>
    exact ih (w := { w with records := w.records ++ [l] }) ⟨hw.agrees, hw.opened, hw.spared⟩
  | @logSecond l _ _ _ ih =>
    exact ih (v := { v with records := v.records ++ [l] }) ⟨hw.agrees, hw.opened, hw.spared⟩
  | @ask r next next' hr hopening hlisting _ ih =>
    have hreply : ((Watched.backend .never).answer r v).1 = .ok (w.platform.answer r).1 :=
      congrArg Except.ok (hw.agrees.reply hopening hlisting).symm
    obtain ⟨hasked, hresult⟩ := ih (w.platform.answer r).1 (hw.answer (r := r) rfl)
    rw [asked_ask, asked_ask, run_ask, run_ask, List.flatMap_cons, hr, hreply, hasked]
    exact ⟨rfl, hresult⟩
  | @create project iid note next next' hr _ ih =>
    have hid : (w.platform.answer (.createDiscussion project iid note)).1.id =
        (v.platform.answer (.createDiscussion project iid note)).1.id :=
      congrArg Platform.discussionId hw.opened.symm
    obtain ⟨hasked, hresult⟩ := ih _ _ hid (hw.spared _ (Nat.le_refl _))
      (hw.answer (r := .createDiscussion project iid note) rfl)
    rw [asked_ask, asked_ask, run_ask, run_ask, List.flatMap_cons, hr]
    exact ⟨congrArg _ hasked, hresult⟩
  | @replace r u next next' hr hopening hopening' _ ih =>
    obtain ⟨hasked, hresult⟩ := ih (w.platform.answer r).1 (v.platform.answer u).1
      (hw.answer (hopening'.trans hopening.symm))
    rw [asked_ask, asked_ask, run_ask, run_ask, List.flatMap_cons, hr]
    exact ⟨congrArg _ hasked, hresult⟩
  | @drop r next prog' hr hopening _ ih =>
    obtain ⟨hasked, hresult⟩ := ih (w.platform.answer r).1 (hw.answer_first hopening)
    rw [asked_ask, run_ask, List.flatMap_cons, hr]
    exact ⟨hasked, hresult⟩

end Program

/-- Whether a discussion is ended, or one of its notes removed or added. -/
def Request.isUpkeep : Request → Bool
  | .addNote .. | .deleteNote .. | .resolve .. => true
  | _ => false

theorem Discussion.filter_flatMap_recast (d : Discussion) (user : Value) (project : String)
    (rs : List Request) :
    (rs.flatMap (d.recast user project)).filter (!·.isUpkeep) = rs.filter (!·.isUpkeep) := by
  have hkept : ∀ r, (d.recast user project r).filter (!·.isUpkeep) = [r].filter (!·.isUpkeep) := by
    intro r
    cases r with
    | resolve target iid id =>
      rw [recast]
      split <;> rfl
    | deleteNote target iid id note =>
      rw [recast]
      split
      · split <;> rfl
      · rfl
    | _ => rfl
  induction rs with
  | nil => rfl
  | cons r rs ih =>
    rw [List.flatMap_cons, List.filter_append, ih, hkept, ← List.filter_append,
      List.singleton_append]

theorem Discussion.flatMap_recast_eq_self {d : Discussion} {user : Value} {project : String}
    {rs : List Request} (h : ∀ r ∈ rs, r.target? = none) :
    rs.flatMap (d.recast user project) = rs := by
  rw [List.flatMap_congr fun r hr => recast_of_target?_none (h r hr)]
  exact List.flatMap_singleton' rs

section

variable {analysis : Analysis} {project : String} {config : Config} {number : Value}
  {p : Platform} {d : Discussion} {n : Note}

/-- Both runs read the same but for the reply, and what they ask then is recast. -/
theorem recast_decorate
    (hids : Value.Numbered Platform.discussionId p.opened (p.discussions.map (·.id)))
    (hd : d ∈ p.discussions) (hby : n.isBy p.username = false) (hsystem : n.system = false) :
    let run := decorate analysis project config number
    let b := Watched.backend .never
    let before : Watched := { platform := p }
    let after : Watched := { platform := p.update d.id (·.append n) }
    run.asked b after = (run.asked b before).flatMap (d.recast p.username analysis.projectKey) ∧
    ((∃ f, (run.run b before).1 = .error f ∧ (run.run b after).1 = .error f) ∨
      ∃ o o', (run.run b before).1 = .ok o ∧ (run.run b after).1 = .ok o' ∧ o.Matches o') := by
  intro run b before after
  have hagrees : p.Agrees (p.update d.id (·.append n)) := ⟨rfl, rfl, rfl, rfl⟩
  have hstart : before.platform = p ∧ after.platform = p.update d.id (·.append n) ∧
      before.Beside after := ⟨rfl, rfl, hagrees, rfl⟩
  rw [← map_request_trace, ← map_request_trace]
  rcases decorate_readsAlike (Watched.readsAlike_failing (fun _ => none) p _) hstart analysis
      project config number with
    ⟨f, reads, v, v', -, ⟨hrun, htrace⟩, ⟨hrun', htrace'⟩, hnone⟩ |
    ⟨g, _, v, v', ⟨hv, hv', -⟩, ⟨hp, rfl⟩, ⟨u, u', ⟨hu, -⟩, huser⟩, ⟨hrun, htrace⟩,
      ⟨hrun', htrace'⟩⟩
  · change run.run b _ = _ at hrun hrun'
    change run.trace b _ = _ at htrace htrace'
    rw [hrun, hrun', htrace, htrace', trace, trace, List.append_nil]
    refine ⟨(Discussion.flatMap_recast_eq_self fun r hr => ?_).symm, Or.inl ⟨f, rfl, rfl⟩⟩
    obtain ⟨e, he, rfl⟩ := List.mem_map.mp hr
    exact Request.target?_of_not_isWrite (hnone e he)
  · change run.run b _ = _ at hrun hrun'
    change run.trace b _ = _ at htrace htrace'
    have hname : g.user.username = p.username := by
      rw [Watched.username_of_answer (fun _ => none) huser, hu]
    have hshown : (p.update d.id (·.append n)).discussions =
        g.discussions.map fun e => if e.id.same d.id then e.append n else e := by
      rw [hp]
      rfl
    have htwin : v.Twin (d.recast p.username analysis.projectKey) v' := by
      refine ⟨?_, ?_, fun k hk => Discussion.isSpared_of_not_same ?_⟩
      · rwa [hv, hv']
      · rw [hv, hv']
        rfl
      · rw [hv] at hk
        exact (hids.fresh d.id (List.mem_map_of_mem hd) k hk).2
    rw [← hname] at hby htwin
    rw [← hp] at hd
    have hrecast : (g.writing analysis config).Recast
        (d.recast g.user.username analysis.projectKey) Outcome.Matches _ :=
      g.recast_writing (fun e he => Discussion.eq_of_same
        (hp ▸ List.pairwise_map.mp hids.apart) he hd) hby hsystem
    rw [← hshown] at hrecast
    obtain ⟨hasked, hresult⟩ := hrecast.run htwin
    rw [hrun, hrun', htrace, htrace', List.map_append, List.map_append, List.flatMap_append,
      map_request_trace, map_request_trace, ← hname]
    refine ⟨congrArg₂ _ (Discussion.flatMap_recast_eq_self fun r hr => ?_).symm hasked, hresult⟩
    obtain ⟨e, he, rfl⟩ := List.mem_map.mp hr
    exact Readings.target?_of_mem_exchanges he

/-- A run after somebody has replied to a discussion asks what a run before it would have asked, in
the same order, except that a thread that was replied to gets a note instead of being resolved, and
a summary that was replied to is marked as outdated instead of being removed, unless it is marked
already. It ends with the same failure, or with an outcome that matches: nothing else is opened or
edited. To the program the discussion is as open or as closed as it was. -/
theorem decorate_after_reply
    (hids : Value.Numbered Platform.discussionId p.opened (p.discussions.map (·.id)))
    (hd : d ∈ p.discussions) (hby : n.isBy p.username = false) (hsystem : n.system = false) :
    let run := decorate analysis project config number
    let b := Watched.backend .never
    let before : Watched := { platform := p }
    let after : Watched := { platform := p.update d.id (·.append n) }
    run.asked b after = (run.asked b before).flatMap (d.recast p.username analysis.projectKey) ∧
    ((∃ f, (run.run b before).1 = .error f ∧ (run.run b after).1 = .error f) ∨
      ∃ o o', (run.run b before).1 = .ok o ∧ (run.run b after).1 = .ok o' ∧ o.Matches o') ∧
    (run.asked b after).filter (!·.isUpkeep) = (run.asked b before).filter (!·.isUpkeep) ∧
    (d.append n).classify p.username (some analysis.projectKey) =
      (·.answered n) <$> d.classify p.username (some analysis.projectKey) := by
  intro run b before after
  obtain ⟨hasked, hresult⟩ : run.asked b after = _ ∧ _ := recast_decorate hids hd hby hsystem
  refine ⟨hasked, hresult, ?_, Discussion.classify_append hby hsystem⟩
  rw [hasked, Discussion.filter_flatMap_recast]

/-- The thread of an issue that is gone is resolved, or gets a note if somebody has asked there. -/
theorem decorate_after_reply_asked :
    let p := sampleWatched.platform
    let start : Note := {
      id := .text "n3"
      author := ⟨.text "sonar-bot", .null⟩
      body := .text "[View in SonarQube](http://x/project/issues?id=p+k&issues=old&open=old)"
      resolvable := true }
    let d : Discussion := ⟨.int 6, [start]⟩
    let n : Note := { id := .text "n4", author := ⟨.text "alice", .null⟩, body := .text "why?" }
    let run := decorate sampleReport "g/p" []
    let b := Watched.backend .never
    let before : Watched := { platform := p }
    let after : Watched := { platform := p.update d.id (·.append n) }
    d ∈ p.discussions ∧
    (run.run b before).1.toOption.map (fun o => (o.resolved, o.noted)) = some (1, 0) ∧
    (run.run b after).1.toOption.map (fun o => (o.resolved, o.noted)) = some (0, 1) ∧
    run.asked b after = (run.asked b before).flatMap (d.recast p.username "p k") := by
  intro p start d n run b before after
  have hd : d ∈ p.discussions := List.mem_cons_of_mem _ (List.mem_singleton_self d)
  refine ⟨hd, by decide +kernel, by decide +kernel, ?_⟩
  exact (decorate_after_reply isRegular_sampleWatched.numbered.discussions hd (by decide +kernel)
    rfl).1

end
end MergeDecoration
