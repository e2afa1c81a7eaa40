import Neaten.Proofs.FileSystem.Locations

/-! # The last component of a path

    Going up from a path drops its last component, whatever else of its text
    goes with it, and a name below a path is one component more.  So the name is
    the last component of the longer path, and above that are the components of
    the shorter one.  A piece that is no name does not give such a path. -/

namespace Neaten.Path

/-! ## Components that come apart -/

/-- The components of the pieces that count. -/
def ofPieces (pieces : List Text) : List Component :=
  (pieces.filter (!isTrivial ·)).map .ofPiece

theorem components_eq (path : Text) :
    components path = (cutLead path).1.toList ++ ofPieces (Text.split '/' (cutLead path).2) := rfl

theorem ofPieces_append (front back : List Text) :
    ofPieces (front ++ back) = ofPieces front ++ ofPieces back := by
  simp [ofPieces]

theorem ofPieces_of_isTrivial {pieces : List Text} (h : ∀ p ∈ pieces, isTrivial p = true) :
    ofPieces pieces = [] := by
  simpa [ofPieces] using h

theorem ofPieces_singleton {piece : Text} (h : isTrivial piece = false) :
    ofPieces [piece] = [.ofPiece piece] := by
  simp [ofPieces, h]

/-- What stands apart at the start stays apart when the rest is cut short,
    unless a lone dot is left. -/
theorem cutLead_lead_append {path t : Text} (h : t <+: (cutLead path).2) (hdot : t ≠ ['.']) :
    cutLead (lead path ++ t) = ((cutLead path).1, t) := by
  unfold lead
  rcases cutLead_cases path with ⟨rest, rfl, -⟩ | ⟨rest, rfl, hrest, hcut⟩ | ⟨habsolute, hcut⟩
  · simp [cutLead]
  · rw [hcut] at h ⊢
    rcases separator_of_prefix hrest h with rfl | ⟨more, rfl⟩ <;> simp [cutLead]
  · rw [hcut] at h ⊢
    simp only [Nat.sub_self, List.take_zero, List.nil_append]
    rcases cutLead_cases t with ⟨rest, rfl, -⟩ | ⟨rest, rfl, hrest, -⟩ | ⟨-, hnone⟩
    · cases isAbsolute_of_prefix h habsolute
    · rcases hrest with rfl | ⟨more, rfl⟩
      · exact absurd rfl hdot
      · obtain ⟨back, rfl⟩ := h
        cases hcut
    · exact hnone

/-- The components of a path of which only the first pieces are left. -/
theorem components_lead_append {path : Text} {kept back : List Text}
    (hsplit : Text.split '/' (cutLead path).2 = kept ++ back)
    (hkept : kept = [] ∨ ∃ front last, kept = front ++ [last] ∧ isTrivial last = false) :
    components (lead path ++ ['/'].intercalate kept) =
      (cutLead path).1.toList ++ ofPieces kept := by
  have hprefix := Text.intercalate_prefix_of_split hsplit
  by_cases hnil : kept = []
  · subst hnil
    rw [components_eq, cutLead_lead_append hprefix (by simp [List.intercalate])]
    rfl
  · have hpieces : Text.split '/' (['/'].intercalate kept) = kept :=
      Text.split_intercalate hnil fun p hp => Text.not_mem_of_split_eq_append hsplit hp
    have hdot : ['/'].intercalate kept ≠ ['.'] := by
      intro heq
      obtain ⟨front, last, rfl, hlast⟩ := hkept.resolve_left hnil
      -- The dot would be the only piece, but it does not count.
      have hlone : [] ++ [['.']] = front ++ [last] := by
        rw [← hpieces, heq]
        rfl
      obtain rfl := List.singleton_inj.mp (List.append_inj' hlone rfl).2
      cases hlast
    rw [components_eq, cutLead_lead_append hprefix hdot, hpieces]

/-! ## Going up -/

/-- The path above has all components but the last. -/
theorem components_of_parent? {path above : Text} (h : parent? path = some above) :
    ∃ last, components path = components above ++ [last] := by
  rcases exists_of_parent? h with
    ⟨rfl, hlead, hrest⟩ | ⟨front, dots, last, rest, hsplit, hdots, hlast, hrest, hfront, rfl⟩
  · refine ⟨.current, ?_⟩
    rw [components_eq, hlead, ofPieces_of_isTrivial hrest]
    rfl
  · refine ⟨.ofPiece last, ?_⟩
    calc components path
        = (cutLead path).1.toList ++ ofPieces (front ++ (dots ++ [last] ++ rest)) := by
          rw [components_eq, hsplit, List.append_assoc, List.singleton_append]
      _ = (cutLead path).1.toList ++ ofPieces front ++ [.ofPiece last] := by
          rw [ofPieces_append, ofPieces_append, ofPieces_append, ofPieces_of_isTrivial hdots,
            ofPieces_singleton hlast, ofPieces_of_isTrivial hrest, List.nil_append,
            List.append_nil, List.append_assoc]
      _ = components (lead path ++ ['/'].intercalate front) ++ [.ofPiece last] := by
          rw [components_lead_append hsplit hfront]

/-- Only the root and the empty path have no path above. -/
theorem components_of_parent?_eq_none {path : Text} (h : parent? path = none) :
    components path = [] ∨ components path = [.root] := by
  obtain ⟨dots, hdots, hsplit, -⟩ := exists_dropTrivialEnd_eq (Text.split '/' (cutLead path).2)
  have hlead := cutLead_cases path
  unfold parent? at h
  rw [components_eq]
  generalize cutLead path = cut at hsplit hlead h ⊢
  obtain ⟨lead, rest⟩ := cut
  dsimp only at hsplit h ⊢
  split at h
  · cases h
  · next hnil hcurrent =>
    rw [hnil, List.nil_append] at hsplit
    rw [hsplit, ofPieces_of_isTrivial hdots, List.append_nil]
    rcases hlead with ⟨_, -, hcut⟩ | ⟨_, -, -, hcut⟩ | ⟨-, hcut⟩
    · obtain ⟨rfl, -⟩ := Prod.mk.inj hcut
      exact .inr rfl
    · obtain ⟨rfl, -⟩ := Prod.mk.inj hcut
      exact absurd rfl hcurrent
    · obtain ⟨rfl, -⟩ := Prod.mk.inj hcut
      exact .inl rfl
  · cases h

/-! ## Going down -/

/-- What stands apart at the start of a path does so however the path goes on. -/
theorem cutLead_append_cons {front : Text} (hne : front ≠ []) (back : Text) :
    cutLead (front ++ '/' :: back) = ((cutLead front).1, (cutLead front).2 ++ '/' :: back) := by
  rcases cutLead_cases front with ⟨rest, rfl, -⟩ | ⟨rest, rfl, hrest, hcut⟩ | ⟨habsolute, hcut⟩
  · rfl
  · rw [hcut]
    rcases hrest with rfl | ⟨more, rfl⟩ <;> rfl
  · obtain ⟨c, more, rfl⟩ := List.exists_cons_of_ne_nil hne
    rw [hcut]
    rcases cutLead_cases (c :: more ++ '/' :: back) with
      ⟨rest, heq, -⟩ | ⟨rest, heq, hrest, -⟩ | ⟨-, hnone⟩
    · obtain ⟨rfl, -⟩ := List.cons.inj heq
      cases habsolute
    · -- A lone dot would stand apart in the first part already.
      obtain ⟨rfl, rfl⟩ := List.cons.inj heq
      cases more with
      | nil => cases hcut
      | cons d others =>
        obtain ⟨_, hnext⟩ := hrest.resolve_left (List.cons_ne_nil _ _)
        obtain ⟨rfl, -⟩ := List.cons.inj hnext
        cases hcut
    · exact hnone

/-- After a separator all components are pieces. -/
theorem components_append_cons {front : Text} (hne : front ≠ []) (back : Text) :
    components (front ++ '/' :: back) = components front ++ ofPieces (Text.split '/' back) := by
  rw [components_eq, components_eq, cutLead_append_cons hne, Text.split_append_cons,
    ofPieces_append, List.append_assoc]

/-- Nothing stands apart at the start of a name. -/
theorem cutLead_name {name : Text} (h : IsName name) : cutLead name = (none, name) := by
  rcases cutLead_cases name with ⟨rest, rfl, -⟩ | ⟨rest, rfl, rfl | ⟨more, rfl⟩, -⟩ | ⟨-, hcut⟩
  · exact absurd List.mem_cons_self h.no_separator
  · exact absurd rfl h.ne_current
  · exact absurd (List.mem_cons_of_mem _ List.mem_cons_self) h.no_separator
  · exact hcut

theorem ofPieces_split_name {name : Text} (h : IsName name) :
    ofPieces (Text.split '/' name) = [.normal name] := by
  rw [Text.split_of_not_mem h.no_separator, ofPieces_singleton h.isTrivial_eq_false,
    Component.ofPiece, if_neg h.ne_parent]

/-- A name below a path is one more component. -/
theorem components_join (base : Text) {name : Text} (h : IsName name) :
    components (join base name) = components base ++ [.normal name] := by
  rw [join_piece base h.isPiece, ← ofPieces_split_name h]
  by_cases hne : base = []
  · subst hne
    rw [if_pos (.inl rfl), List.nil_append, components_eq, cutLead_name h]
    rfl
  · by_cases hlast : base.getLast? = some '/'
    · rw [if_pos (.inr hlast)]
      obtain ⟨front, rfl⟩ := List.getLast?_eq_some_iff.mp hlast
      rw [List.append_assoc, List.singleton_append]
      by_cases hfront : front = []
      · subst hfront
        rfl
      · -- After the last separator nothing counts.
        have hnothing : ofPieces (Text.split '/' []) = [] := rfl
        rw [components_append_cons hfront, components_append_cons hfront, hnothing,
          List.append_nil]
    · rw [if_neg (by simp [hne, hlast]), components_append_cons hne]

/-! ## Files in a directory -/

/-- A path is that of a file in a directory: its last component is the name of
    the file, and above it are the components of the directory. -/
structure IsFileIn (directory name path : Text) : Prop where
  fileName : fileName? path = some name
  above : ∃ above, parent? path = some above ∧ components above = components directory

theorem isName_of_fileName? {path name : Text} (h : fileName? path = some name) : IsName name := by
  unfold fileName? at h
  split at h
  · next last hlast =>
    obtain rfl := Option.some.inj h
    exact isName_of_mem_components (List.mem_of_getLast? hlast)
  · cases h

/-- A name below a directory is that of a file in it. -/
theorem isFileIn_join (directory : Text) {name : Text} (h : IsName name) :
    IsFileIn directory name (join directory name) := by
  have hcomponents := components_join directory h
  constructor
  · rw [fileName?, hcomponents, List.getLast?_concat]
  · cases habove : parent? (join directory name) with
    | none =>
      -- The name would be the last component of the root or of the empty path.
      have hlast := components_of_parent?_eq_none habove
      rw [hcomponents] at hlast
      rcases hlast with hnil | hroot
      · have hnone := congrArg List.getLast? hnil
        rw [List.getLast?_concat] at hnone
        cases hnone
      · have hsome := congrArg List.getLast? hroot
        rw [List.getLast?_concat] at hsome
        cases hsome
    | some above =>
      obtain ⟨last, hlast⟩ := components_of_parent? habove
      rw [hcomponents] at hlast
      exact ⟨above, rfl, (List.append_inj' hlast rfl).1.symm⟩

/-- Only names below a directory are those of files in it. -/
theorem isFileIn_join_iff (directory name : Text) :
    IsFileIn directory name (join directory name) ↔ IsName name :=
  ⟨fun h => isName_of_fileName? h.fileName, isFileIn_join directory⟩

end Neaten.Path
