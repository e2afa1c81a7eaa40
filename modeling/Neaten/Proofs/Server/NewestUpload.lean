import Mathlib.Data.List.Nodup
import Neaten.Server.State

/-! # The newest upload wins

    Uploads overlap, so the steps they take on the state come in any order:
    an upload arrives and gets a token, and some time later its outcome is
    published under that token; in between the outcome may be read.

    A run is `Orderly` if every token is published after it was issued and only
    once, and fewer than `2 ^ 64` tokens are issued.  Of every orderly run:

    * the tokens are 1, 2, 3 and so on;
    * stored is the outcome with the greatest token published so far;
    * a publication is stored just if no greater token came before it;
    * the order in which the outcomes came in does not matter in the end. -/

namespace Neaten.Server

/-! ## Runs -/

/-- A step on the state of the server. -/
inductive Action where
  /-- An upload arrives and is given a token. -/
  | arrive
  /-- An upload is done, successfully or not. -/
  | publish (token : UInt64) (outcome : Outcome)
  /-- The outcome that is stored is read. -/
  | latest
deriving DecidableEq

/-- What is answered to a step. -/
inductive Answer where
  | token (token : UInt64)
  /-- Whether the outcome was stored. -/
  | published (stored : Bool)
  | latest (stored : Option Published)
deriving DecidableEq

/-- The token that was given, if one was. -/
def Answer.token? : Answer → Option UInt64
  | token t => some t
  | _ => none

/-- What a step publishes, if it does. -/
def Action.published? : Action → Option Published
  | publish token outcome => some ⟨token, outcome⟩
  | _ => none

/-- Takes a step. -/
def State.perform (s : State) : Action → Answer × State
  | .arrive => (.token s.issue.1, s.issue.2)
  | .publish token outcome =>
    (.published (s.publish token outcome).1, (s.publish token outcome).2)
  | .latest => (.latest s.stored, s)

/-- Takes some steps, one after another. -/
def State.run (s : State) : List Action → List Answer × State
  | [] => ([], s)
  | action :: rest =>
    ((s.perform action).1 :: ((s.perform action).2.run rest).1, ((s.perform action).2.run rest).2)

/-- The state of a new server after some steps. -/
def after (actions : List Action) : State := (State.run {} actions).2

/-- The tokens that some steps on a new server were given, in order. -/
def issued (actions : List Action) : List UInt64 :=
  (State.run {} actions).1.filterMap Answer.token?

/-- What some steps publish, in order, whether it is stored or not. -/
def publications (actions : List Action) : List Published :=
  actions.filterMap Action.published?

/-- The tokens of what some steps publish. -/
def publishedTokens (actions : List Action) : List UInt64 := (publications actions).map (·.token)

/-- The runs that uploads make: a token is published after it was issued, and
    only once, and the tokens do not run out. -/
inductive Orderly : List Action → Prop where
  | start : Orderly []
  | arrive {before : List Action} : Orderly before → (issued before).length + 1 < UInt64.size →
      Orderly (before ++ [.arrive])
  | publish {before : List Action} {token : UInt64} {outcome : Outcome} : Orderly before →
      token ∈ issued before → token ∉ publishedTokens before →
      Orderly (before ++ [.publish token outcome])
  | latest {before : List Action} : Orderly before → Orderly (before ++ [.latest])

/-- Whether a slot holds the one of some publications whose token is greater
    than all others; it is empty just if there are none. -/
def IsNewest (published : List Published) : Option Published → Prop
  | none => published = []
  | some p => p ∈ published ∧ ∀ q ∈ published, q = p ∨ q.token < p.token

/-! ## One more step -/

theorem State.run_append (s : State) (front back : List Action) :
    s.run (front ++ back) =
      ((s.run front).1 ++ ((s.run front).2.run back).1, ((s.run front).2.run back).2) := by
  induction front generalizing s with
  | nil => rfl
  | cons action rest ih =>
    rw [List.cons_append, run, ih]
    rfl

@[simp] theorem after_concat (before : List Action) (action : Action) :
    after (before ++ [action]) = ((after before).perform action).2 := by
  unfold after
  rw [State.run_append]
  rfl

@[simp] theorem issued_concat (before : List Action) (action : Action) :
    issued (before ++ [action]) =
      issued before ++ (((after before).perform action).1.token?).toList := by
  unfold issued after
  rw [State.run_append, List.filterMap_append]
  cases h : (((State.run {} before).2.perform action).1).token? <;>
    simp [State.run, h]

@[simp] theorem publications_concat (before : List Action) (action : Action) :
    publications (before ++ [action]) = publications before ++ action.published?.toList := by
  unfold publications
  rw [List.filterMap_append]
  cases h : action.published? <;> simp [h]

/-- Every beginning of an orderly run is orderly. -/
theorem Orderly.of_prefix {actions front : List Action} (h : Orderly actions)
    (hp : front <+: actions) : Orderly front := by
  induction h with
  | start => rw [List.prefix_nil.mp hp]; exact .start
  | arrive h hroom ih =>
    rcases List.prefix_concat_iff.mp hp with rfl | hp
    · exact .arrive h hroom
    · exact ih hp
  | publish h hissued hnew ih =>
    rcases List.prefix_concat_iff.mp hp with rfl | hp
    · exact .publish h hissued hnew
    · exact ih hp
  | latest h ih =>
    rcases List.prefix_concat_iff.mp hp with rfl | hp
    · exact .latest h
    · exact ih hp

/-! ## The invariant -/

/-- What holds of the state after an orderly run. -/
structure Inv (actions : List Action) : Prop where
  /-- The counter is the number of tokens given. -/
  counter : (after actions).issued.toNat = (issued actions).length
  tokens : (issued actions).map UInt64.toNat = List.range' 1 (issued actions).length
  distinct : (publishedTokens actions).Nodup
  newest : IsNewest (publications actions) (after actions).stored

theorem inv_start : Inv [] where
  counter := rfl
  tokens := rfl
  distinct := List.nodup_nil
  newest := rfl

theorem inv_arrive {before : List Action} (h : Inv before)
    (hroom : (issued before).length + 1 < UInt64.size) : Inv (before ++ [.arrive]) := by
  -- The counter does not wrap around, because the tokens have not run out.
  have hcounter := h.counter
  have hnext : ((after before).issued + 1).toNat = (issued before).length + 1 := by
    rw [UInt64.toNat_add, hcounter]
    exact Nat.mod_eq_of_lt hroom
  have hissued : issued (before ++ [.arrive]) = issued before ++ [(after before).issued + 1] :=
    issued_concat before .arrive
  refine ⟨?_, ?_, ?_, ?_⟩
  · rw [hissued, after_concat, List.length_append]
    exact hnext
  · rw [hissued, List.map_append, h.tokens, List.length_append, List.length_singleton,
      List.range'_concat, List.map_singleton, hnext, Nat.one_mul, Nat.add_comm 1]
  · simpa [publishedTokens, Action.published?] using h.distinct
  · simpa [State.perform, Action.published?] using h.newest

theorem inv_latest {before : List Action} (h : Inv before) : Inv (before ++ [.latest]) := by
  refine ⟨?_, ?_, ?_, ?_⟩
  · simpa [State.perform, Answer.token?] using h.counter
  · simpa [State.perform, Answer.token?] using h.tokens
  · simpa [publishedTokens, Action.published?] using h.distinct
  · simpa [State.perform, Action.published?] using h.newest

/-- A publication is accepted just if no greater token was published. -/
theorem accepts_iff {s : State} {published : List Published} (h : IsNewest published s.stored)
    (token : UInt64) : s.accepts token = true ↔ ∀ p ∈ published, ¬ token < p.token := by
  unfold State.accepts
  cases hs : s.stored with
  | none =>
    rw [hs] at h
    obtain rfl : published = [] := h
    simp
  | some p =>
    rw [hs] at h
    obtain ⟨hp, hmax⟩ := h
    rw [Option.all_some, decide_eq_true_iff]
    constructor
    · intro hle q hq hlt
      rcases hmax q hq with rfl | hqp
      · exact absurd hlt (UInt64.not_lt.mpr hle)
      · exact absurd (UInt64.lt_trans hlt hqp) (UInt64.not_lt.mpr hle)
    · intro hnone
      exact UInt64.not_lt.mp (hnone p hp)

/-- One more publication with a greater token than all others is the newest. -/
theorem isNewest_concat_self {published : List Published} {p : Published}
    (h : ∀ q ∈ published, q.token < p.token) : IsNewest (published ++ [p]) (some p) := by
  refine ⟨List.mem_concat_self, ?_⟩
  intro q hq
  rcases List.mem_append.mp hq with hold | hlast
  · exact Or.inr (h q hold)
  · exact Or.inl (List.mem_singleton.mp hlast)

/-- One more publication with a token less than another is not the newest. -/
theorem IsNewest.concat_of_lt {published : List Published} {slot : Option Published}
    {p g : Published} (h : IsNewest published slot) (hg : g ∈ published)
    (hlt : p.token < g.token) : IsNewest (published ++ [p]) slot := by
  cases slot with
  | none =>
    obtain rfl : published = [] := h
    cases hg
  | some newest =>
    obtain ⟨hmem, hmax⟩ := h
    refine ⟨List.mem_append_left _ hmem, ?_⟩
    intro q hq
    rcases List.mem_append.mp hq with hold | hlast
    · exact hmax q hold
    · right
      obtain rfl := List.mem_singleton.mp hlast
      rcases hmax g hg with rfl | hgn
      · exact hlt
      · exact UInt64.lt_trans hlt hgn

/-- Publishing under a new token keeps the newest publication stored. -/
theorem isNewest_publish {s : State} {published : List Published}
    (h : IsNewest published s.stored) {token : UInt64} (outcome : Outcome)
    (hnew : token ∉ published.map (·.token)) :
    IsNewest (published ++ [⟨token, outcome⟩]) (s.publish token outcome).2.stored := by
  have hiff := accepts_iff h token
  unfold State.publish
  split
  · next ha =>
    -- No token is published twice, so one that is not less is greater.
    apply isNewest_concat_self
    intro q hq
    have hle : ¬ token < q.token := hiff.mp ha q hq
    have hne : q.token ≠ token := fun he => hnew (he ▸ List.mem_map_of_mem hq)
    exact UInt64.lt_of_le_of_ne (UInt64.not_lt.mp hle) hne
  · next ha =>
    have hgreater : ∃ g ∈ published, token < g.token := by
      by_contra hn
      exact ha (hiff.mpr fun g hg hlt => hn ⟨g, hg, hlt⟩)
    obtain ⟨g, hg, hlt⟩ := hgreater
    exact h.concat_of_lt hg hlt

theorem inv_publish {before : List Action} {token : UInt64} {outcome : Outcome}
    (h : Inv before) (hnew : token ∉ publishedTokens before) :
    Inv (before ++ [.publish token outcome]) := by
  refine ⟨?_, ?_, ?_, ?_⟩
  · simpa [State.perform, Answer.token?] using h.counter
  · simpa [State.perform, Answer.token?] using h.tokens
  · unfold publishedTokens
    rw [publications_concat, List.map_append]
    exact List.nodup_append.mpr ⟨h.distinct, List.nodup_singleton token, by
      intro a ha b hb
      obtain rfl := List.mem_singleton.mp hb
      rintro rfl
      exact hnew ha⟩
  · rw [publications_concat, after_concat]
    exact isNewest_publish h.newest outcome hnew

theorem inv_of_orderly {actions : List Action} (h : Orderly actions) : Inv actions := by
  induction h with
  | start => exact inv_start
  | arrive _ hroom ih => exact inv_arrive ih hroom
  | publish _ _ hnew ih => exact inv_publish ih hnew
  | latest _ ih => exact inv_latest ih

/-! ## The theorem -/

/-- The newest of some publications does not depend on their order. -/
theorem IsNewest.eq_of_perm {published others : List Published} (hperm : published.Perm others)
    {slot other : Option Published} (h : IsNewest published slot) (ho : IsNewest others other) :
    slot = other := by
  cases slot with
  | none =>
    obtain rfl : published = [] := h
    cases other with
    | none => rfl
    | some q => exact absurd (hperm.mem_iff.mpr ho.1) List.not_mem_nil
  | some p =>
    have hp : p ∈ others := hperm.mem_iff.mp h.1
    cases other with
    | none =>
      obtain rfl : others = [] := ho
      cases hp
    | some q =>
      rcases h.2 q (hperm.mem_iff.mpr ho.1) with rfl | hqp
      · rfl
      · rcases ho.2 p hp with rfl | hpq
        · rfl
        · exact absurd (UInt64.lt_trans hqp hpq) (UInt64.lt_irrefl _)

/-- **The newest upload wins** in every orderly run.  The tokens count from 1.
    After every step the newest publication is stored.  Every publication is
    stored just if no greater token was published before, and changes nothing
    otherwise.  In the end the order of the publications does not matter. -/
theorem newest_upload_wins (actions : List Action) (h : Orderly actions) :
    ((issued actions).map UInt64.toNat = List.range' 1 (issued actions).length ∧
      (issued actions).Nodup) ∧
    (∀ front, front <+: actions → IsNewest (publications front) (after front).stored) ∧
    (∀ front token outcome, front ++ [.publish token outcome] <+: actions →
      (((after front).publish token outcome).1 = true ↔
        ∀ p ∈ publications front, ¬ token < p.token) ∧
      (((after front).publish token outcome).1 = false →
        ((after front).publish token outcome).2 = after front)) ∧
    ∀ others, Orderly others → (publications actions).Perm (publications others) →
      (after actions).stored = (after others).stored := by
  have hinv := inv_of_orderly h
  refine ⟨⟨hinv.tokens, ?_⟩, ?_, ?_, ?_⟩
  · have : ((issued actions).map UInt64.toNat).Nodup := hinv.tokens ▸ List.nodup_range'
    exact this.of_map
  · intro front hfront
    exact (inv_of_orderly (h.of_prefix hfront)).newest
  · intro front token outcome hfront
    have hprefix : front <+: actions := (List.prefix_append front _).trans hfront
    have hnewest := (inv_of_orderly (h.of_prefix hprefix)).newest
    rw [← accepts_iff hnewest token]
    unfold State.publish
    split <;> simp_all
  · intro others hothers hperm
    exact hinv.newest.eq_of_perm hperm (inv_of_orderly hothers).newest

/-- An outcome to tell uploads apart. -/
def failedAs (name : Text) : Outcome := .failed name "Error processing file"

/-- Two uploads of which the later one is done first. -/
def overtaking : List Action :=
  [.arrive, .arrive, .publish 2 (failedAs "fast"), .latest, .publish 1 (failedAs "slow")]

/-- Two uploads that are done in the order in which they came. -/
def inTurn : List Action :=
  [.arrive, .publish 1 (failedAs "slow"), .arrive, .publish 2 (failedAs "fast")]

theorem orderly_overtaking : Orderly overtaking :=
  .publish (.latest (.publish (.arrive (.arrive .start (by decide)) (by decide)) (by decide)
    (by decide))) (by decide) (by decide)

theorem orderly_inTurn : Orderly inTurn :=
  .publish (.arrive (.publish (.arrive .start (by decide)) (by decide) (by decide)) (by decide))
    (by decide) (by decide)

/-- Whether an upload is overtaken or not, the newest one is stored. -/
theorem newest_upload_wins_overtaking :
    Orderly overtaking ∧ (after overtaking).stored = some ⟨2, failedAs "fast"⟩ ∧
      (after overtaking).stored = (after inTurn).stored := by
  have hwins := newest_upload_wins overtaking orderly_overtaking
  refine ⟨orderly_overtaking, ?_, ?_⟩
  · decide
  · exact hwins.2.2.2 inTurn orderly_inTurn (by decide)

end Neaten.Server
