import MergeDecoration.Proofs.Decoration.Rerun
import MergeDecoration.Proofs.Number.Numeral
import MergeDecoration.Proofs.Program.Exchange

/-!
A run that fails. It has asked what it asks when nothing fails, up to the request that failed, and
ends with the failure of the step that this request is.
-/
namespace MergeDecoration

open Program

/-- What a run reads before it writes. -/
structure Readings where
  iid : Int
  mergeRequest : MergeRequest
  user : User
  commits : List Value
  discussions : List Discussion

namespace Readings

/-- The requests that read it, each answered. -/
def exchanges (g : Readings) (project : String) : List Exchange :=
  [⟨.mergeRequest project (.int g.iid), .ok g.mergeRequest⟩,
    ⟨.currentUser, .ok g.user⟩,
    ⟨.commits g.mergeRequest.targetProject g.mergeRequest.iid, .ok g.commits⟩,
    ⟨.discussions g.mergeRequest.targetProject g.mergeRequest.iid, .ok g.discussions⟩]

/-- What the run goes by once the discussions are classified. -/
def snapshot (g : Readings) (analysis : Analysis) (config : Config)
    (discussions : List Classified) : Snapshot where
  analysis := analysis.withServer config
  mergeRequest := g.mergeRequest
  username := g.user.username
  commits := g.commits
  discussions := discussions
  config := config

/-- What the run does with it. -/
def writing (g : Readings) (analysis : Analysis) (config : Config) : Program Outcome := do
  let discussions ← classifyAll g.user.username
    (some (analysis.withServer config).projectKey) g.discussions
  (g.snapshot analysis config discussions).write

end Readings

/-- Why a run ends before it has read everything: the number of the merge request or a commit cannot
be used, or a request failed. -/
inductive CannotRead (analysis : Analysis) (number : Value) (t : List Exchange) : Fault → Prop
  | number {f : Fault} (h : numberOf analysis number = .error f) :
    CannotRead analysis number t f
  | commits {project iid : Value} {commits : List Value} {f : Fault}
    (ht : ⟨.commits project iid, .ok commits⟩ ∈ t) (h : checkCommits commits = .error f) :
    CannotRead analysis number t f
  | request {r : Request} {s : Step} {f : Fault} (ht : ⟨r, .error f⟩ ∈ t)
    (hs : r.step? = some s) : CannotRead analysis number t (r.failure f)

variable {analysis : Analysis} {project : String} {config : Config} {number : Value}

/-- A run ends while it reads, having written nothing, or it reads everything and goes by that. -/
theorem ends_decorate {t : List Exchange} {x : Except Fault Outcome}
    (h : (decorate analysis project config number).Ends t x) :
    (∃ f, x = .error f ∧ CannotRead analysis number t f ∧
      ∀ e ∈ t, e.request.isWrite = false) ∨
    ∃ (g : Readings) (rest : List Exchange), t = g.exchanges project ++ rest ∧
      (g.writing analysis config).Ends rest x := by
  unfold decorate at h
  rcases ends_lift_bind h with ⟨f, hnumber, rfl, rfl⟩ | ⟨iid, -, hread⟩
  · exact Or.inl ⟨f, rfl, .number hnumber, nofun⟩
  rcases ends_step_bind rfl hread with ⟨f, rfl, rfl⟩ | ⟨mergeRequest, t₁, rfl, huser⟩
  · exact Or.inl ⟨_, rfl, .request (List.mem_of_getLast? rfl) rfl, by simp [Request.isWrite]⟩
  rcases ends_step_bind rfl huser with ⟨f, rfl, rfl⟩ | ⟨user, t₂, rfl, hcommits⟩
  · exact Or.inl ⟨_, rfl, .request (List.mem_of_getLast? rfl) rfl, by simp [Request.isWrite]⟩
  rcases ends_step_bind rfl hcommits with ⟨f, rfl, rfl⟩ | ⟨commits, t₃, rfl, hcheck⟩
  · exact Or.inl ⟨_, rfl, .request (List.mem_of_getLast? rfl) rfl, by simp [Request.isWrite]⟩
  rcases ends_lift_bind hcheck with ⟨f, hbad, rfl, rfl⟩ | ⟨_, -, hdiscussions⟩
  · exact Or.inl ⟨f, rfl, .commits (List.mem_of_getLast? rfl) hbad, by simp [Request.isWrite]⟩
  rcases ends_step_bind rfl hdiscussions with ⟨f, rfl, rfl⟩ | ⟨discussions, t₄, rfl, hwrite⟩
  · exact Or.inl ⟨_, rfl, .request (List.mem_of_getLast? rfl) rfl, by simp [Request.isWrite]⟩
  exact Or.inr ⟨⟨iid, mergeRequest, user, commits, discussions⟩, t₄, rfl, hwrite⟩

/-- The number of a merge request that is no numeral cannot be read. -/
theorem readNumber_of_not_isNumeral {v : Value} (h : ¬Numeral.IsNumeral v.shown.toList) :
    ∃ e, readNumber v = .error (.decoration .readNumber (.invalid e)) := by
  have hread : ∀ i, integerOfText (Text.trim v.shown) ≠ .ok i := by
    intro i hi
    unfold integerOfText at hi
    split at hi
    · next j hj =>
      apply h
      apply Numeral.isNumeral_of_trimWhile
      rw [Text.trim, String.toList_ofList] at hj
      exact Numeral.isNumeral_of_readInt hj
    · cases hi
    · cases hi
  unfold readNumber
  split
  · cases hi : integerOfText (Text.trim v.shown) with
    | ok i => exact absurd hi (hread i)
    | error e => exact ⟨e, rfl⟩
  · exact ⟨.unwritable, rfl⟩

/-- Everything that a run asks of the platform is a step of it. -/
theorem exists_step?_of_asked {σ : Type} {b : Backend σ} {w : σ} {r : Request}
    (hr : r ∈ (decorate analysis project config number).asked b w)
    (hplatform : ∀ path line, r ≠ .changeset path line) : ∃ s, r.step? = some s := by
  have hclose := (failStop_decorate analysis project config number).allowed_of_mem hr
  cases r with
  | createDiscussion _ _ note => cases note <;> exact ⟨_, rfl⟩
  | close => exact absurd rfl hclose
  | changeset path line => exact absurd rfl (hplatform path line)
  | _ => exact ⟨_, rfl⟩

/-- Nothing is written before everything is read. -/
theorem trace_of_isWrite {σ : Type} {b : Backend σ} {w : σ} {n : Nat} {r : Request}
    (hr : ((decorate analysis project config number).asked b w)[n]? = some r)
    (hwrite : r.isWrite = true) :
    4 ≤ n ∧ ∃ (g : Readings) (rest : List Exchange),
      (decorate analysis project config number).trace b w = g.exchanges project ++ rest := by
  rw [← map_request_trace] at hr
  rcases ends_decorate (ends_run _ b w) with ⟨-, -, -, hreads⟩ | ⟨g, rest, htrace, -⟩
  · obtain ⟨e, he, rfl⟩ := List.mem_map.mp (List.mem_of_getElem? hr)
    rw [hreads e he] at hwrite
    cases hwrite
  · refine ⟨?_, g, rest, htrace⟩
    by_contra hn
    have hlt : n < 4 := Nat.not_le.mp hn
    rw [htrace, List.map_append, List.getElem?_append_left hlt] at hr
    interval_cases n <;> obtain rfl := Option.some.inj hr <;> cases hwrite

/-- Whichever request to the platform fails, the run has asked just what it asks otherwise up to
there, and ends with the failure of that step. A number that is no numeral ends it before it asks
anything. Nothing is written before the four reads are answered. -/
theorem decorate_failStop {σ : Type} (b : Backend σ) (w : σ) :
    let run := decorate analysis project config number
    (∀ n r message, (run.asked b w)[n]? = some r → (∀ path line, r ≠ .changeset path line) →
      ∃ s, r.step? = some s ∧
        run.asked (b.failingAt n message) (0, w) = (run.asked b w).take (n + 1) ∧
        (run.run (b.failingAt n message) (0, w)).1 =
          .error (.decoration s (.transport message))) ∧
    (¬Numeral.IsNumeral
        (if number.isNull then .text analysis.pullRequestId else number : Value).shown.toList →
      run.asked b w = [] ∧
        ∃ e, (run.run b w).1 = .error (.decoration .readNumber (.invalid e))) ∧
    ∀ n r, (run.asked b w)[n]? = some r → r.isWrite = true →
      4 ≤ n ∧ ∃ (g : Readings) (rest : List Exchange),
        run.trace b w = g.exchanges project ++ rest := by
  intro run
  refine ⟨?_, ?_, fun n r => trace_of_isWrite⟩
  · intro n r message hr hplatform
    obtain ⟨s, hs⟩ := exists_step?_of_asked (List.mem_of_getElem? hr) hplatform
    have hfail := failStop_decorate analysis project config number
    obtain ⟨hasked, hrun⟩ := hfail.run_failingAt b message (k := 0) hr
    rw [Nat.zero_add] at hasked hrun
    rw [Request.failure_transport hs] at hrun
    exact ⟨s, hs, hasked, hrun⟩
  · intro hnumeral
    obtain ⟨e, he⟩ := readNumber_of_not_isNumeral hnumeral
    have hstop : run = .stop (.decoration .readNumber (.invalid e)) := by
      change decorate analysis project config number = _
      rw [decorate, he]
      rfl
    rw [hstop]
    exact ⟨rfl, e, rfl⟩

/-- A run whose first new thread cannot be opened, and one for a merge request without a number. -/
theorem decorate_failStop_sample :
    let run := decorate sampleReport "g/p" []
    let nameless := decorate sampleReport "g/p" [] (.text "")
    let b := Watched.backend .never
    (∃ r, (run.asked b sampleWatched)[5]? = some r ∧ r.step? = some .createIssueNote ∧
      run.asked (b.failingAt 5 "down") (0, sampleWatched) = (run.asked b sampleWatched).take 6 ∧
      (run.run (b.failingAt 5 "down") (0, sampleWatched)).1 =
        .error (.decoration .createIssueNote (.transport "down")) ∧
      ∃ (g : Readings) (rest : List Exchange),
        run.trace b sampleWatched = g.exchanges "g/p" ++ rest) ∧
    nameless.asked b sampleWatched = [] ∧
      ∃ e, (nameless.run b sampleWatched).1 = .error (.decoration .readNumber (.invalid e)) := by
  intro run nameless b
  have hasked : ((run.asked b sampleWatched)[5]?.bind (·.step?)) = some .createIssueNote := by
    decide +kernel
  obtain ⟨r, hr, hstep⟩ := Option.bind_eq_some_iff.mp hasked
  have hplatform : ∀ path line, r ≠ .changeset path line := by
    rintro path line rfl
    cases hstep
  have hwrite : r.isWrite = true := by
    cases r with
    | createDiscussion => rfl
    | _ => cases hstep
  have hnumeral : ¬Numeral.IsNumeral (Value.text "").shown.toList := by
    rintro ⟨before, sign, digits, after, hs, -, -, hdigits, -⟩
    cases hdigits <;> simp at hs
  obtain ⟨hfailing, -, hreads⟩ := decorate_failStop b sampleWatched
  obtain ⟨-, hnameless, -⟩ := decorate_failStop b sampleWatched
  obtain ⟨s, hs, hprefix, hrun⟩ := hfailing 5 r "down" hr hplatform
  obtain rfl : s = .createIssueNote := Option.some.inj (hs.symm.trans hstep)
  exact ⟨⟨r, hr, hstep, hprefix, hrun, (hreads 5 r hr hwrite).2⟩, hnameless hnumeral⟩

end MergeDecoration
