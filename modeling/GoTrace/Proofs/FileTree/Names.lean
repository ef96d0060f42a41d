import GoTrace.FileTree.Path
import GoTrace.FileTree.Walk
import GoTrace.Proofs.Text.Cut
import Mathlib.Data.List.Induction

/-!
# Paths of names

The paths that names spell from the root on. Their segments, their components and the strides along
them are those names again, the directories above them are spelled by fewer of the names, and every
path from the root is made normal to one of them.
-/

namespace GoTrace

namespace Path

/-- What a directory can call an entry so that a path can spell it. -/
structure IsName (name : FileName) : Prop where
  ne_nil : name ≠ []
  no_slash : Octet.slash ∉ name
  ne_dot : name ≠ [Octet.dot]
  ne_dots : name ≠ [Octet.dot, Octet.dot]

instance (name : FileName) : Decidable (IsName name) :=
  decidable_of_iff (name ≠ [] ∧ Octet.slash ∉ name ∧ name ≠ [Octet.dot] ∧ name ≠ [Octet.dot, Octet.dot])
    ⟨fun ⟨hnil, hslash, hdot, hdots⟩ => ⟨hnil, hslash, hdot, hdots⟩,
      fun h => ⟨h.ne_nil, h.no_slash, h.ne_dot, h.ne_dots⟩⟩

theorem component?_of_isName {name : FileName} (h : IsName name) :
    component? name = some (.name name) := by
  simp [component?, h.ne_nil, h.ne_dot, h.ne_dots]

theorem component?_cases {segment : List UInt8} (h : Octet.slash ∉ segment) {component : PathComponent}
    (hcomponent : component? segment = some component) :
    component = .up ∨ ∃ name, component = .name name ∧ IsName name := by
  unfold component? at hcomponent
  split at hcomponent
  · cases hcomponent
  · rename_i hsays
    rw [Bool.or_eq_true, not_or, List.isEmpty_iff, decide_eq_true_eq] at hsays
    split at hcomponent
    · cases hcomponent
      exact .inl rfl
    · rename_i hdots
      cases hcomponent
      exact .inr ⟨segment, rfl, hsays.1, h, hsays.2, hdots⟩

/-! ## What names spell -/

section

variable {names : List FileName}

theorem isAbsolute_ofNames (names : List FileName) : (ofNames names).isAbsolute = true := rfl

theorem intercalate_cons_nil (hne : names ≠ []) :
    [Octet.slash].intercalate ([] :: names) = Octet.slash :: [Octet.slash].intercalate names :=
  Text.intercalate_append (List.cons_ne_nil [] []) hne

theorem octets_ofNames_concat (names : List FileName) (name : FileName) :
    (ofNames (names ++ [name])).octets =
      if names = [] then Octet.slash :: name else (ofNames names).octets ++ Octet.slash :: name := by
  split
  · rename_i hnil
    rw [hnil, List.nil_append, ofNames, List.intercalate_singleton]
  · rename_i hne
    rw [ofNames, Text.intercalate_append hne (List.cons_ne_nil name []), List.intercalate_singleton]
    rfl

theorem segments_ofNames (h : ∀ name ∈ names, IsName name) :
    (ofNames names).segments = [] :: if names = [] then [[]] else names := by
  rw [segments, ofNames, Text.fieldsBy_mark_cons]
  split
  · rename_i hnil
    subst hnil
    rfl
  · rename_i hne
    rw [Text.fieldsBy_intercalate hne fun name hname => (h name hname).no_slash]

theorem filterMap_of_isName {α : Type} {f : List UInt8 → Option α} {g : FileName → α}
    (h : ∀ name ∈ names, IsName name) (hname : ∀ {name}, IsName name → f name = some (g name)) :
    names.filterMap f = names.map g := by
  induction names with
  | nil => rfl
  | cons name rest ih =>
      obtain ⟨hfirst, hrest⟩ := List.forall_mem_cons.mp h
      rw [List.filterMap_cons_some (hname hfirst), ih hrest, List.map_cons]

theorem filterMap_segments_ofNames {α : Type} {f : List UInt8 → Option α} {g : FileName → α}
    (h : ∀ name ∈ names, IsName name) (hnil : f [] = none)
    (hname : ∀ {name}, IsName name → f name = some (g name)) :
    (ofNames names).segments.filterMap f = names.map g := by
  rw [segments_ofNames h, List.filterMap_cons_none hnil]
  split
  · rename_i hempty
    rw [hempty, List.filterMap_cons_none hnil]
    rfl
  · exact filterMap_of_isName h hname

theorem components_ofNames (h : ∀ name ∈ names, IsName name) :
    (ofNames names).components = .root :: names.map .name := by
  rw [components, isAbsolute_ofNames, filterMap_segments_ofNames h rfl component?_of_isName]
  rfl

theorem exists_of_relativeTo? (h : ∀ name ∈ names, IsName name) {outer : List FileName}
    (houter : ∀ name ∈ outer, IsName name)
    (hbelow : ((ofNames names).relativeTo? (ofNames outer)).isSome = true) :
    ∃ more, names = outer ++ more ∧
      (ofNames names).relativeTo? (ofNames outer) = some (more.map .name) := by
  rw [relativeTo?, components_ofNames h, components_ofNames houter] at hbelow ⊢
  split at hbelow
  · rename_i hleads
    rw [if_pos hleads]
    obtain ⟨rest, hrest⟩ := List.isPrefixOf_iff_prefix.mp hleads
    obtain ⟨first, more, rfl, hfirst, hmore⟩ := List.map_eq_append_iff.mp (List.cons.inj hrest).2.symm
    obtain rfl : first = outer := (List.map_inj_right fun _ _ heq => PathComponent.name.inj heq).mp hfirst
    exact ⟨more, rfl, by simp⟩
  · cases hbelow

theorem getLast?_ofNames (h : ∀ name ∈ names, IsName name) (hne : names ≠ []) :
    (ofNames names).octets.getLast? ≠ some Octet.slash := by
  obtain ⟨before, name, rfl⟩ := (List.eq_nil_or_concat names).resolve_left hne
  rw [List.concat_eq_append] at h ⊢
  have hname := h name (List.mem_append_right _ List.mem_cons_self)
  have hlast : ∀ text : List UInt8, (text ++ name).getLast? ≠ some Octet.slash := by
    intro text hslash
    have hlast := List.getLast?_eq_some_getLast hname.ne_nil
    rw [List.getLast?_append, hlast, Option.some_or] at hslash
    exact hname.no_slash (List.mem_of_getLast? (hlast.trans hslash))
  rw [octets_ofNames_concat]
  split
  · exact hlast [Octet.slash]
  · rw [← List.singleton_append, ← List.append_assoc]
    exact hlast _

theorem strides_ofNames (h : ∀ name ∈ names, IsName name) :
    (ofNames names).strides = names.map .enter := by
  have hname {name : FileName} (hname : IsName name) :
      (if name.isEmpty then none
        else if name = [Octet.dot] then some Stride.stay
        else if name = [Octet.dot, Octet.dot] then some .up
        else some (.enter name)) = some (.enter name) := by
    simp [hname.ne_nil, hname.ne_dot, hname.ne_dots]
  rw [strides, filterMap_segments_ofNames h rfl hname]
  cases names with
  | nil => rfl
  | cons first rest => simp [getLast?_ofNames h nofun]

theorem child_ofNames (h : ∀ name ∈ names, IsName name) {name : FileName} (hname : IsName name) :
    (ofNames names).child name = ofNames (names ++ [name]) := by
  have hrelative : (Path.mk name).isAbsolute = false := by
    rw [isAbsolute, decide_eq_false_iff_not]
    exact fun hhead => hname.no_slash (List.mem_of_head? hhead)
  have hoctets := octets_ofNames_concat names name
  rw [child, join, if_neg (by rw [hrelative]; decide)]
  split
  · rename_i hslash
    rw [Bool.or_eq_true, decide_eq_true_eq] at hslash
    rcases hslash with hempty | hslash
    · cases hempty
    · obtain rfl : names = [] := by
        by_cases hne : names = []
        · exact hne
        · exact absurd hslash (getLast?_ofNames h hne)
      exact congrArg Path.mk hoctets.symm
  · rename_i hslash
    have hne : names ≠ [] := by
      rintro rfl
      exact hslash (by decide)
    rw [if_neg hne] at hoctets
    exact congrArg Path.mk hoctets.symm

theorem foldl_child_ofNames (h : ∀ name ∈ names, IsName name) {more : List FileName}
    (hmore : ∀ name ∈ more, IsName name) :
    more.foldl child (ofNames names) = ofNames (names ++ more) := by
  induction more generalizing names with
  | nil => rw [List.append_nil]; rfl
  | cons name rest ih =>
      obtain ⟨hname, hrest⟩ := List.forall_mem_cons.mp hmore
      have hnames : ∀ other ∈ names ++ [name], IsName other :=
        List.forall_mem_append.mpr ⟨h, List.forall_mem_singleton.mpr hname⟩
      rw [List.foldl_cons, child_ofNames h hname, ih hnames hrest, List.append_assoc]
      rfl

/-! ## Directories above -/

theorem spell_ofNames (hne : names ≠ []) : spell ([] :: names).reverse = ofNames names := by
  rw [spell, List.reverse_reverse, intercalate_cons_nil hne]
  rfl

/-- The paths from an entry up to the root are the entry and those from its directory. -/
theorem chain_concat {name : FileName} (hname : IsName name) (before : List FileName) :
    chain slash ([] :: (before ++ [name])).reverse =
      ofNames (before ++ [name]) :: chain slash ([] :: before).reverse := by
  have hspelled := spell_ofNames (List.concat_ne_nil name before)
  have hreverse : ([] :: (before ++ [name])).reverse = name :: ([] :: before).reverse := by simp
  rw [hreverse] at hspelled
  rw [hreverse, chain, if_neg (by simp [isTrivial, hname.ne_nil, hname.ne_dot]), hspelled]

theorem head?_chain (h : ∀ name ∈ names, IsName name) :
    (chain slash ([] :: names).reverse).head? = some (ofNames names) := by
  rcases List.eq_nil_or_concat names with rfl | ⟨before, name, rfl⟩
  · rfl
  · rw [List.concat_eq_append] at h ⊢
    rw [chain_concat (h name (List.mem_append_right _ List.mem_cons_self))]
    rfl

theorem exists_of_mem_chain (h : ∀ name ∈ names, IsName name) {above : Path}
    (habove : above ∈ chain slash ([] :: names).reverse) :
    ∃ shorter, shorter <+: names ∧ above = ofNames shorter := by
  induction names using List.reverseRecOn with
  | nil => exact ⟨[], List.prefix_refl _, List.mem_singleton.mp habove⟩
  | append_singleton before name ih =>
      obtain ⟨hbefore, hname⟩ := List.forall_mem_append.mp h
      rw [chain_concat (hname name List.mem_cons_self)] at habove
      rcases List.mem_cons.mp habove with rfl | habove
      · exact ⟨before ++ [name], List.prefix_refl _, rfl⟩
      · obtain ⟨shorter, hshorter, heq⟩ := ih hbefore habove
        exact ⟨shorter, hshorter.trans (List.prefix_append _ _), heq⟩

theorem parents_concat (h : ∀ name ∈ names, IsName name) {name : FileName} (hname : IsName name) :
    (ofNames (names ++ [name])).parents = chain slash ([] :: names).reverse := by
  have hnames : ∀ other ∈ names ++ [name], IsName other :=
    List.forall_mem_append.mpr ⟨h, List.forall_mem_singleton.mpr hname⟩
  have hne : names ++ [name] ≠ [] := List.concat_ne_nil name names
  rw [parents, isAbsolute_ofNames, if_pos rfl, segments_ofNames hnames, if_neg hne,
    chain_concat hname]
  rfl

theorem exists_of_mem_ancestors (h : ∀ name ∈ names, IsName name) {above : Path}
    (habove : above ∈ (ofNames names).ancestors) :
    ∃ shorter, shorter <+: names ∧ above = ofNames shorter := by
  rcases List.mem_cons.mp habove with rfl | habove
  · exact ⟨names, List.prefix_refl _, rfl⟩
  · rcases List.eq_nil_or_concat names with rfl | ⟨before, name, rfl⟩
    · cases habove
    · rw [List.concat_eq_append] at h habove ⊢
      obtain ⟨hbefore, hname⟩ := List.forall_mem_append.mp h
      rw [parents_concat hbefore (hname name List.mem_cons_self)] at habove
      obtain ⟨shorter, hshorter, heq⟩ := exists_of_mem_chain hbefore habove
      exact ⟨shorter, hshorter.trans (List.prefix_append _ _), heq⟩

theorem parent_ofNames (h : ∀ name ∈ names, IsName name) :
    (ofNames names).parent?.getD (ofNames names) = ofNames names.dropLast := by
  rcases List.eq_nil_or_concat names with rfl | ⟨before, name, rfl⟩
  · rfl
  · rw [List.concat_eq_append] at h ⊢
    obtain ⟨hbefore, hname⟩ := List.forall_mem_append.mp h
    rw [parent?, parents_concat hbefore (hname name List.mem_cons_self), head?_chain hbefore,
      List.dropLast_concat]
    rfl

end

/-! ## Normal paths -/

theorem exists_foldl_ofNames {components : List PathComponent}
    (hcomponents : ∀ component ∈ components,
      component = .up ∨ ∃ name, component = .name name ∧ IsName name)
    {names : List FileName} (h : ∀ name ∈ names, IsName name) :
    ∃ found : List FileName, (∀ name ∈ found, IsName name) ∧
      components.foldl
        (fun path component =>
          match component with
          | .root => path.join slash
          | .here => path
          | .up => path.parent?.getD path
          | .name name => path.child name)
        (ofNames names) = ofNames found := by
  induction components generalizing names with
  | nil => exact ⟨names, h, rfl⟩
  | cons component rest ih =>
      obtain ⟨hcomponent, hrest⟩ := List.forall_mem_cons.mp hcomponents
      rw [List.foldl_cons]
      rcases hcomponent with rfl | ⟨name, rfl, hname⟩
      · have hshorter : ∀ name ∈ names.dropLast, IsName name :=
          fun name hmem => h name ((List.dropLast_sublist names).subset hmem)
        dsimp only
        rw [parent_ofNames h]
        exact ih hrest hshorter
      · have hlonger : ∀ other ∈ names ++ [name], IsName other :=
          List.forall_mem_append.mpr ⟨h, List.forall_mem_singleton.mpr hname⟩
        dsimp only
        rw [child_ofNames h hname]
        exact ih hrest hlonger

theorem exists_normal_ofNames {path : Path} (h : path.isAbsolute = true) :
    ∃ names : List FileName, (∀ name ∈ names, IsName name) ∧
      normal path.components = ofNames names := by
  have hcomponents : ∀ component ∈ path.segments.filterMap component?,
      component = .up ∨ ∃ name, component = .name name ∧ IsName name := by
    intro component hmem
    obtain ⟨segment, hsegment, hsays⟩ := List.mem_filterMap.mp hmem
    refine component?_cases (fun hslash => ?_) hsays
    have hplain := Text.notMem_of_mem_fieldsBy hsegment Octet.slash hslash
    exact absurd rfl (of_decide_eq_false hplain)
  have hempty : ∀ name ∈ ([] : List FileName), IsName name := nofun
  rw [components, h, if_pos rfl]
  exact exists_foldl_ofNames hcomponents hempty

theorem isAbsolute_join {outer inner : Path} (h : outer.isAbsolute = true) :
    (outer.join inner).isAbsolute = true := by
  obtain ⟨octets⟩ := outer
  obtain ⟨rest, rfl⟩ := List.head?_eq_some_iff.mp (of_decide_eq_true h)
  unfold join
  split
  · rename_i hinner
    exact hinner
  · split <;> rfl

theorem isAbsolute_foldl_child {path : Path} (h : path.isAbsolute = true) (names : List FileName) :
    (names.foldl child path).isAbsolute = true := by
  induction names generalizing path with
  | nil => exact h
  | cons name rest ih => exact ih (isAbsolute_join h)

theorem isAbsolute_of_mem_ancestors {path above : Path} (h : path.isAbsolute = true)
    (habove : above ∈ path.ancestors) : above.isAbsolute = true := by
  have hchain : ∀ reversed : List (List UInt8), above ∈ chain slash (reversed ++ [[]]) →
      above.isAbsolute = true := by
    intro reversed
    induction reversed with
    | nil =>
        intro hmem
        rw [List.mem_singleton.mp hmem]
        rfl
    | cons segment before ih =>
        intro hmem
        rw [List.cons_append, chain] at hmem
        split at hmem
        · exact ih hmem
        · rcases List.mem_cons.mp hmem with rfl | hmem
          · rw [spell, ← List.cons_append, List.reverse_append, List.reverse_singleton,
              List.singleton_append, intercalate_cons_nil (by simp)]
            rfl
          · exact ih hmem
  rcases List.mem_cons.mp habove with rfl | habove
  · exact h
  · obtain ⟨octets⟩ := path
    obtain ⟨rest, rfl⟩ := List.head?_eq_some_iff.mp (of_decide_eq_true h)
    rw [parents, h, if_pos rfl, segments,
      Text.fieldsBy_mark_cons, List.reverse_cons] at habove
    exact hchain _ (List.mem_of_mem_tail habove)

end Path

end GoTrace
