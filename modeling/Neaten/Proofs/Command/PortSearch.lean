import Mathlib.Order.Bounds.Basic
import Neaten.Command.Serve

/-! # Which port is found

    Ports are asked for one after another, from the one that is wanted on, until
    one is free.  The search ends early in two ways: there are only so many
    attempts, and no port comes after the last one.

    Ports are numbers of 16 bits, so the one after the last would be the first of
    all.  Here they are looked at as the numbers they stand for, among which
    nothing wraps around. -/

namespace Neaten.Command

variable {free : UInt16 → Bool} {attempts : Nat} {start port : UInt16}

/-! ## The ports in question -/

/-- The numbers of the ports that may be found: so many from the start on, as far
    as there are ports, and free. -/
def openPorts (free : UInt16 → Bool) (attempts : Nat) (start : UInt16) : Set Nat :=
  {n | start.toNat ≤ n ∧ n < start.toNat + attempts ∧ n < UInt16.size ∧
    free (UInt16.ofNat n) = true}

theorem openPorts_zero (free : UInt16 → Bool) (start : UInt16) : openPorts free 0 start = ∅ := by
  ext n
  simp only [Set.mem_empty_iff_false, iff_false]
  intro hn
  obtain ⟨hle, hlt, -⟩ := hn
  omega

/-- Nothing comes before a start that is free. -/
theorem isLeast_openPorts (attempts : Nat) (h : free start = true) :
    IsLeast (openPorts free (attempts + 1) start) start.toNat := by
  constructor
  · have hsize := start.toNat_lt_size
    refine ⟨by omega, by omega, hsize, ?_⟩
    rw [UInt16.ofNat_toNat]
    exact h
  · intro n hn
    exact hn.1

/-- Next to a start that is not the last port comes the next number. -/
theorem toNat_add_one (h : start ≠ 65535) : (start + 1).toNat = start.toNat + 1 := by
  have hsize : start.toNat < 65536 := start.toNat_lt_size
  have hne : start.toNat ≠ 65535 := fun he => h (UInt16.toNat_inj.mp he)
  rw [UInt16.toNat_add]
  show (start.toNat + 1) % 65536 = start.toNat + 1
  omega

/-- A start that is taken is none of the ports in question. -/
theorem ne_toNat_of_taken {n : Nat} (h : free start = false) (hn : free (UInt16.ofNat n) = true) :
    n ≠ start.toNat := by
  intro he
  rw [he, UInt16.ofNat_toNat, h] at hn
  exact Bool.false_ne_true hn

/-- From a start that is taken the search goes on at the next port. -/
theorem openPorts_succ (attempts : Nat) (h : free start = false) (hlast : start ≠ 65535) :
    openPorts free (attempts + 1) start = openPorts free attempts (start + 1) := by
  ext n
  have hnext := toNat_add_one hlast
  constructor
  · intro hn
    obtain ⟨hle, hlt, hsize, hfree⟩ := hn
    have hne := ne_toNat_of_taken h hfree
    exact ⟨by omega, by omega, hsize, hfree⟩
  · intro hn
    obtain ⟨hle, hlt, hsize, hfree⟩ := hn
    exact ⟨by omega, by omega, hsize, hfree⟩

/-- After the last port there is nothing. -/
theorem openPorts_last (attempts : Nat) (h : free 65535 = false) :
    openPorts free attempts 65535 = ∅ := by
  ext n
  simp only [Set.mem_empty_iff_false, iff_false]
  intro hn
  obtain ⟨hle, -, hsize, hfree⟩ := hn
  have hne := ne_toNat_of_taken h hfree
  have hlast : (65535 : UInt16).toNat = 65535 := rfl
  have hports : n < 65536 := hsize
  omega

/-! ## The search -/

/-- What a search ends with, and which ports it has asked for by then, each of
    them once and from the lowest to the highest. -/
inductive SearchEnds (free : UInt16 → Bool) (attempts : Nat) (start : UInt16) :
    Option UInt16 → List UInt16 → Prop
  /-- The first free port, after those below it. -/
  | found {port : UInt16} {asked : List UInt16}
      (least : IsLeast (openPorts free attempts start) port.toNat)
      (order : asked.map UInt16.toNat = List.range' start.toNat (port.toNat + 1 - start.toNat)) :
      SearchEnds free attempts start (some port) asked
  /-- Nothing, after all that there are. -/
  | nowhere {asked : List UInt16}
      (none_open : openPorts free attempts start = ∅)
      (order : asked.map UInt16.toNat =
        List.range' start.toNat (min attempts (UInt16.size - start.toNat))) :
      SearchEnds free attempts start none asked

/-- One more port in front that is taken. -/
theorem SearchEnds.cons {found : Option UInt16} {asked : List UInt16} (h : free start = false)
    (hlast : start ≠ 65535) (hrest : SearchEnds free attempts (start + 1) found asked) :
    SearchEnds free (attempts + 1) start found (start :: asked) := by
  have hnext := toNat_add_one hlast
  have hports := openPorts_succ attempts h hlast
  cases hrest with
  | found least order =>
    rename_i port
    have hle := least.1.1
    have hcount : port.toNat + 1 - start.toNat = (port.toNat + 1 - (start + 1).toNat) + 1 := by
      omega
    refine .found (hports ▸ least) ?_
    rw [List.map_cons, order, hcount, List.range'_succ, hnext]
  | nowhere none_open order =>
    have hsize : start.toNat < UInt16.size := start.toNat_lt_size
    have hcount : min (attempts + 1) (UInt16.size - start.toNat) =
        min attempts (UInt16.size - (start + 1).toNat) + 1 := by
      omega
    refine .nowhere (hports ▸ none_open) ?_
    rw [List.map_cons, order, hcount, List.range'_succ, hnext]

/-- **Every search ends** with the first port in question, or nowhere because there
    is none. -/
theorem searchEnds_findPort (free : UInt16 → Bool) (attempts : Nat) (start : UInt16) :
    SearchEnds free attempts start (findPort free attempts start).1
      (findPort free attempts start).2 := by
  induction attempts generalizing start with
  | zero =>
    refine .nowhere (openPorts_zero free start) ?_
    simp
  | succ attempts ih =>
    by_cases h : free start = true
    · rw [findPort_of_free h]
      refine .found (isLeast_openPorts attempts h) ?_
      simp
    · have htaken : free start = false := Bool.eq_false_of_not_eq_true h
      by_cases hlast : start = 65535
      · subst hlast
        -- However many attempts are left, there is no port to go on to.
        have hcount : min (attempts + 1) (UInt16.size - (65535 : UInt16).toNat) = 1 := by
          show min (attempts + 1) 1 = 1
          omega
        rw [findPort_last htaken]
        refine .nowhere (openPorts_last (attempts + 1) htaken) ?_
        rw [hcount]
        rfl
      · rw [findPort_next htaken hlast]
        exact .cons htaken hlast (ih (start + 1))

theorem SearchEnds.of_some {asked : List UInt16}
    (h : SearchEnds free attempts start (some port) asked) :
    IsLeast (openPorts free attempts start) port.toNat ∧
      asked.map UInt16.toNat = List.range' start.toNat (port.toNat + 1 - start.toNat) := by
  cases h with
  | found least order => exact ⟨least, order⟩

theorem SearchEnds.of_none {asked : List UInt16} (h : SearchEnds free attempts start none asked) :
    openPorts free attempts start = ∅ ∧
      asked.map UInt16.toNat =
        List.range' start.toNat (min attempts (UInt16.size - start.toNat)) := by
  cases h with
  | nowhere none_open order => exact ⟨none_open, order⟩

theorem findPort_eq_some_iff :
    (findPort free attempts start).1 = some port ↔
      IsLeast (openPorts free attempts start) port.toNat := by
  have hends := searchEnds_findPort free attempts start
  constructor
  · intro h
    rw [h] at hends
    exact hends.of_some.1
  · intro hleast
    cases hfound : (findPort free attempts start).1 with
    | none =>
      rw [hfound] at hends
      have hmem := hleast.1
      rw [hends.of_none.1] at hmem
      exact absurd hmem (Set.notMem_empty _)
    | some other =>
      rw [hfound] at hends
      have hsame : other.toNat = port.toNat := hends.of_some.1.unique hleast
      rw [UInt16.toNat_inj.mp hsame]

theorem findPort_eq_none_iff :
    (findPort free attempts start).1 = none ↔ openPorts free attempts start = ∅ := by
  have hends := searchEnds_findPort free attempts start
  constructor
  · intro h
    rw [h] at hends
    exact hends.of_none.1
  · intro hempty
    cases hfound : (findPort free attempts start).1 with
    | none => rfl
    | some port =>
      rw [hfound] at hends
      have hmem := hends.of_some.1.1
      rw [hempty] at hmem
      exact absurd hmem (Set.notMem_empty _)

/-! ## The port that is listened on -/

section

variable {host : Net.Address}

theorem bind_eq_ok_iff :
    bind free attempts host start = .ok port ↔ (findPort free attempts start).1 = some port := by
  unfold bind
  cases (findPort free attempts start).1 with
  | none => simp
  | some other => simp

theorem bind_eq_error_iff {f : Failure} :
    bind free attempts host start = .error f ↔
      (findPort free attempts start).1 = none ∧ f = ⟨[], .noPort host start attempts⟩ := by
  unfold bind
  cases (findPort free attempts start).1 with
  | none => simp [eq_comm]
  | some other => simp

/-- In words such a failure is one of the server. -/
theorem prefix_message_noPort :
    ("Server error: " : Text) <+: (⟨[], .noPort host start attempts⟩ : Failure).message := by
  have hcause : ("Server error: " : Text) <+:
      ("Server error: Could not find an available port on host " : Text) := by
    decide
  show _ <+: (": " : Text).intercalate [_]
  rw [List.intercalate_singleton]
  simp only [List.append_assoc]
  exact hcause.trans (List.prefix_append _ _)

end

/-- **The first free port is found.**  The server listens on a port just if that
    is the smallest free one among so many from the start on and not beyond the
    last port, and fails just if none of these is free; what it fails with is a
    failure of the server.  Until then it has asked for every port from the start
    to the one that is found, or for all of them, each once and in increasing
    order, and for no other. -/
theorem bind_finds_first_open (free : UInt16 → Bool) (attempts : Nat) (host : Net.Address)
    (start : UInt16) :
    (∀ port, bind free attempts host start = .ok port ↔
      IsLeast (openPorts free attempts start) port.toNat) ∧
    ((∃ f, bind free attempts host start = .error f) ↔ openPorts free attempts start = ∅) ∧
    (∀ f, bind free attempts host start = .error f →
      f = ⟨[], .noPort host start attempts⟩ ∧ ("Server error: " : Text) <+: f.message) ∧
    (∀ port, bind free attempts host start = .ok port →
      (findPort free attempts start).2.map UInt16.toNat =
        List.range' start.toNat (port.toNat + 1 - start.toNat)) ∧
    ∀ f, bind free attempts host start = .error f →
      (findPort free attempts start).2.map UInt16.toNat =
        List.range' start.toNat (min attempts (UInt16.size - start.toNat)) := by
  have hends := searchEnds_findPort free attempts start
  refine ⟨?_, ?_, ?_, ?_, ?_⟩
  · intro port
    rw [bind_eq_ok_iff, findPort_eq_some_iff]
  · rw [← findPort_eq_none_iff]
    constructor
    · intro hfails
      obtain ⟨f, hf⟩ := hfails
      exact (bind_eq_error_iff.mp hf).1
    · intro hnone
      exact ⟨_, bind_eq_error_iff.mpr ⟨hnone, rfl⟩⟩
  · intro f hf
    obtain ⟨-, rfl⟩ := bind_eq_error_iff.mp hf
    exact ⟨rfl, prefix_message_noPort⟩
  · intro port hport
    rw [bind_eq_ok_iff.mp hport] at hends
    exact hends.of_some.2
  · intro f hf
    rw [(bind_eq_error_iff.mp hf).1] at hends
    exact hends.of_none.2

/-- The last port is found at the third attempt; if it is taken as well, the
    search does not go on at port 0, which is free. -/
theorem bind_finds_first_open_atTheEnd :
    bind (fun p => p == 0 || p == 65535) 10 .localhost 65533 = .ok 65535 ∧
      IsLeast (openPorts (fun p => p == 0 || p == 65535) 10 65533) 65535 ∧
      (findPort (fun p => p == 0 || p == 65535) 10 65533).2.map UInt16.toNat =
        [65533, 65534, 65535] ∧
      bind (· == 0) 10 .localhost 65533 = .error ⟨[], .noPort .localhost 65533 10⟩ ∧
      openPorts (· == 0) 10 65533 = ∅ ∧
      (findPort (· == 0) 10 65533).2.map UInt16.toNat = [65533, 65534, 65535] := by
  have hfound : bind (fun p => p == 0 || p == 65535) 10 .localhost 65533 = .ok 65535 :=
    bind_eq_ok_iff.mpr (by decide)
  have hnone : bind (· == 0) 10 .localhost 65533 = .error ⟨[], .noPort .localhost 65533 10⟩ :=
    bind_eq_error_iff.mpr ⟨by decide, rfl⟩
  obtain ⟨hleast, -, -, horder, -⟩ :=
    bind_finds_first_open (fun p => p == 0 || p == 65535) 10 .localhost 65533
  obtain ⟨-, hempty, -, -, hall⟩ := bind_finds_first_open (· == 0) 10 .localhost 65533
  exact ⟨hfound, (hleast 65535).mp hfound, horder 65535 hfound, hnone, hempty.mp ⟨_, hnone⟩,
    hall _ hnone⟩

end Neaten.Command
