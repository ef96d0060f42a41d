import GoTrace.Proofs.FileTree.Walks

/-!
# Paths without steps up

The segments of such a path are names, or say nothing. The directories above it end with its names, one
less each time, and the strides along each of them are strides along the path.
-/

namespace GoTrace.Path

/-- A segment of a path that does not say a step up. -/
structure IsPlain (segment : List UInt8) : Prop where
  no_slash : Octet.slash ∉ segment
  not_up : component? segment ≠ some .up

variable {segment name : List UInt8} {segments before rest : List (List UInt8)} {path : Path}

theorem IsPlain.cases (h : IsPlain segment) : component? segment = none ∨ IsName segment := by
  cases hcomponent : component? segment with
  | none => exact .inl rfl
  | some component =>
      rcases component?_cases h.no_slash hcomponent with rfl | ⟨name, rfl, hname⟩
      · exact absurd hcomponent h.not_up
      · unfold component? at hcomponent
        split at hcomponent
        · cases hcomponent
        · split at hcomponent
          · cases hcomponent
          · cases hcomponent
            exact .inr hname

theorem isPlain_of_isName (h : IsName name) : IsPlain name :=
  ⟨h.no_slash, by rw [component?_of_isName h]; nofun⟩

theorem component?_eq_none_iff : component? segment = none ↔ segment = [] ∨ segment = [Octet.dot] := by
  unfold component?
  split
  · simp_all
  · split <;> simp_all

theorem isPlain_of_mem_segments (h : .up ∉ path.components) (hmem : segment ∈ path.segments) :
    IsPlain segment := by
  refine ⟨fun hslash => ?_, fun hup => h ?_⟩
  · have hplain := Text.notMem_of_mem_fieldsBy hmem Octet.slash hslash
    exact absurd rfl (of_decide_eq_false hplain)
  · exact List.mem_append_right _ (List.mem_filterMap.mpr ⟨segment, hmem, hup⟩)

/-! ## Text -/

theorem intercalate_segments (path : Path) : [Octet.slash].intercalate path.segments = path.octets :=
  Text.intercalate_fieldsBy path.octets

theorem segments_of_isAbsolute (h : path.isAbsolute = true) :
    ∃ rest, path.segments = [] :: rest := by
  obtain ⟨octets⟩ := path
  obtain ⟨rest, rfl⟩ := List.head?_eq_some_iff.mp (of_decide_eq_true h)
  exact ⟨_, Text.fieldsBy_mark_cons _ _⟩

theorem mem_octets_ofNames {c : UInt8} {names : List FileName} (h : c ∈ (ofNames names).octets) :
    c = Octet.slash ∨ ∃ name ∈ names, c ∈ name := by
  induction names using List.reverseRecOn with
  | nil => exact .inl (List.mem_singleton.mp h)
  | append_singleton before name ih =>
      have hlast (h : c ∈ Octet.slash :: name) : c = Octet.slash ∨ ∃ other ∈ before ++ [name], c ∈ other :=
        (List.mem_cons.mp h).imp_right fun hmem =>
          ⟨name, List.mem_append_right _ List.mem_cons_self, hmem⟩
      rw [octets_ofNames_concat] at h
      split at h
      · exact hlast h
      · rcases List.mem_append.mp h with h | h
        · refine (ih h).imp_right ?_
          rintro ⟨other, hother, hmem⟩
          exact ⟨other, List.mem_append_left _ hother, hmem⟩
        · exact hlast h

theorem mem_octets_join {c : UInt8} {outer inner : Path} (h : c ∈ (outer.join inner).octets) :
    c ∈ outer.octets ∨ c = Octet.slash ∨ c ∈ inner.octets := by
  unfold join at h
  split at h
  · exact .inr (.inr h)
  · split at h
    · exact (List.mem_append.mp h).imp_right .inr
    · exact (List.mem_append.mp h).imp_right List.mem_cons.mp

/-- A relative path goes on behind the names of the directory that it starts from. -/
theorem segments_join {names : List FileName} (hnames : ∀ name ∈ names, IsName name)
    (h : path.isAbsolute = false) :
    ((ofNames names).join path).segments = [] :: (names ++ path.segments) := by
  rw [join, h, if_neg Bool.false_ne_true]
  split
  · rename_i hslash
    rw [Bool.or_eq_true, decide_eq_true_eq] at hslash
    have hnil : names = [] := by
      by_cases hne : names = []
      · exact hne
      · exact absurd (hslash.resolve_left Bool.false_ne_true) (getLast?_ofNames hnames hne)
    rw [hnil]
    exact Text.fieldsBy_mark_cons _ path.octets
  · rename_i hslash
    have hne : names ≠ [] := by
      rintro rfl
      exact hslash (by decide)
    rw [ofNames, List.cons_append, segments, Text.fieldsBy_mark_cons,
      Text.fieldsBy_append_mark_cons,
      Text.fieldsBy_intercalate hne fun name hname => (hnames name hname).no_slash]
    rfl

theorem normal_ofNames {names : List FileName} (h : ∀ name ∈ names, IsName name) :
    normal (ofNames names).components = ofNames names := by
  have hempty : ∀ name ∈ ([] : List FileName), IsName name := nofun
  rw [components_ofNames h, normal, List.foldl_cons, List.foldl_map]
  exact foldl_child_ofNames hempty h

theorem isPlain_of_mem_segments_join {names : List FileName} (hnames : ∀ name ∈ names, IsName name)
    (hup : .up ∉ path.components) (hmem : segment ∈ ((ofNames names).join path).segments) :
    IsPlain segment := by
  cases habsolute : path.isAbsolute with
  | true =>
      rw [join, habsolute, if_pos rfl] at hmem
      exact isPlain_of_mem_segments hup hmem
  | false =>
      rw [segments_join hnames habsolute] at hmem
      rcases List.mem_cons.mp hmem with rfl | hmem
      · exact ⟨List.not_mem_nil, by decide⟩
      · rcases List.mem_append.mp hmem with hmem | hmem
        · exact isPlain_of_isName (hnames segment hmem)
        · exact isPlain_of_mem_segments hup hmem

/-! ## Strides -/

def stride? (segment : List UInt8) : Option Stride :=
  if segment.isEmpty then none
  else if segment = [Octet.dot] then some .stay
  else if segment = [Octet.dot, Octet.dot] then some .up
  else some (.enter segment)

theorem strides_eq (path : Path) : path.strides =
    if !(path.segments.filterMap stride?).isEmpty && path.octets.getLast? = some Octet.slash then
      path.segments.filterMap stride? ++ [.settle]
    else path.segments.filterMap stride? := rfl

theorem stride?_of_isName (h : IsName name) : stride? name = some (.enter name) := by
  simp [stride?, h.ne_nil, h.ne_dot, h.ne_dots]

theorem exists_stride? (h : segment ≠ []) : ∃ stride, stride? segment = some stride := by
  unfold stride?
  rw [List.isEmpty_eq_false_iff.mpr h, if_neg Bool.false_ne_true]
  split
  · exact ⟨_, rfl⟩
  · split <;> exact ⟨_, rfl⟩

theorem filterMap_stride?_ne_nil (h : path.isAbsolute = false) (hne : path.octets ≠ []) :
    path.segments.filterMap stride? ≠ [] := by
  obtain ⟨octets⟩ := path
  obtain ⟨c, rest, rfl⟩ := List.exists_cons_of_ne_nil hne
  have hslash : decide (c = Octet.slash) = false := by
    rw [isAbsolute, decide_eq_false_iff_not] at h
    exact decide_eq_false fun heq => h (congrArg some heq)
  obtain ⟨field, fields, hfields⟩ := Text.exists_fieldsBy (fun c => decide (c = Octet.slash)) rest
  have hsegments : segments ⟨c :: rest⟩ = (c :: field) :: fields := by
    rw [segments, Text.fieldsBy, hfields]
    simp [hslash]
  obtain ⟨stride, hstride⟩ := exists_stride? (List.cons_ne_nil c field)
  rw [hsegments, List.filterMap_cons_some hstride]
  exact List.cons_ne_nil _ _

/-- A relative path goes on behind the strides to the directory that it starts from. -/
theorem strides_join {names : List FileName} (hnames : ∀ name ∈ names, IsName name)
    (h : path.isAbsolute = false) (hne : path.octets ≠ []) :
    ((ofNames names).join path).strides = names.map .enter ++ path.strides := by
  have hinner : ((ofNames names).join path).segments.filterMap stride? =
      names.map .enter ++ path.segments.filterMap stride? := by
    rw [segments_join hnames h, List.filterMap_cons_none rfl, List.filterMap_append,
      filterMap_of_isName hnames stride?_of_isName]
  have hlast : ((ofNames names).join path).octets.getLast? = path.octets.getLast? := by
    have happend (outer : List UInt8) : (outer ++ path.octets).getLast? = path.octets.getLast? := by
      rw [List.getLast?_append, List.getLast?_eq_some_getLast hne, Option.some_or]
    rw [join, h, if_neg Bool.false_ne_true]
    split
    · exact happend _
    · rw [List.append_cons]
      exact happend _
  have hsome := filterMap_stride?_ne_nil h hne
  have hmore : names.map Stride.enter ++ path.segments.filterMap stride? ≠ [] :=
    List.append_ne_nil_of_right_ne_nil _ hsome
  rw [strides_eq, strides_eq, hinner, hlast, List.isEmpty_eq_false_iff.mpr hsome,
    List.isEmpty_eq_false_iff.mpr hmore]
  split
  · exact List.append_assoc _ _ _
  · rfl

theorem isPause_of_mem_filterMap (h : ∀ segment ∈ segments, component? segment = none) :
    ∀ stride ∈ segments.filterMap stride?, stride.IsPause := by
  intro stride hmem
  obtain ⟨segment, hsegment, hstride⟩ := List.mem_filterMap.mp hmem
  rcases component?_eq_none_iff.mp (h segment hsegment) with rfl | rfl
  · cases hstride
  · cases hstride
    exact .stay

theorem exists_strides (hsegments : path.segments = before ++ name :: rest) (hname : IsName name)
    (hrest : ∀ segment ∈ rest, component? segment = none) :
    ∃ pauses : List Stride, path.strides = before.filterMap stride? ++ .enter name :: pauses ∧
      ∀ stride ∈ pauses, stride.IsPause := by
  have hinner : path.segments.filterMap stride? =
      before.filterMap stride? ++ .enter name :: rest.filterMap stride? := by
    rw [hsegments, List.filterMap_append, List.filterMap_cons_some (stride?_of_isName hname)]
  have hpauses := isPause_of_mem_filterMap hrest
  rw [strides_eq, hinner]
  split
  · refine ⟨rest.filterMap stride? ++ [.settle], by simp, ?_⟩
    exact List.forall_mem_append.mpr ⟨hpauses, List.forall_mem_singleton.mpr .settle⟩
  · exact ⟨rest.filterMap stride?, rfl, hpauses⟩

theorem isPause_of_mem_strides (h : ∀ segment ∈ path.segments, component? segment = none) :
    ∀ stride ∈ path.strides, stride.IsPause := by
  have hpauses := isPause_of_mem_filterMap h
  rw [strides_eq]
  split
  · exact List.forall_mem_append.mpr ⟨hpauses, List.forall_mem_singleton.mpr .settle⟩
  · exact hpauses

theorem fileName?_of_segments (hsegments : path.segments = before ++ name :: rest) (hname : IsName name)
    (hrest : ∀ segment ∈ rest, component? segment = none) : path.fileName? = some name := by
  have hnone : rest.filterMap component? = [] := List.filterMap_eq_nil_iff.mpr hrest
  rw [fileName?, components, hsegments, List.filterMap_append,
    List.filterMap_cons_some (component?_of_isName hname), hnone, ← List.append_assoc,
    List.getLast?_concat]

theorem not_up_of_isPlain (h : ∀ segment ∈ segments, IsPlain segment) :
    .up ∉ segments.filterMap stride? := by
  intro hmem
  obtain ⟨segment, hsegment, hstride⟩ := List.mem_filterMap.mp hmem
  rcases (h segment hsegment).cases with hnone | hname
  · rcases component?_eq_none_iff.mp hnone with rfl | rfl <;> cases hstride
  · cases (stride?_of_isName hname).symm.trans hstride

/-! ## Directories above -/

theorem segments_ofNames_concat (hbefore : ∀ segment ∈ before, IsPlain segment) (hname : IsName name) :
    (ofNames (before ++ [name])).segments = ([] :: before) ++ [name] := by
  have hslash : ∀ segment ∈ before ++ [name], Octet.slash ∉ segment :=
    List.forall_mem_append.mpr ⟨fun segment hmem => (hbefore segment hmem).no_slash,
      List.forall_mem_singleton.mpr hname.no_slash⟩
  rw [segments, ofNames, Text.fieldsBy_mark_cons,
    Text.fieldsBy_intercalate (List.concat_ne_nil name before) hslash]
  rfl

theorem strides_ofNames_concat (hbefore : ∀ segment ∈ before, IsPlain segment) (hname : IsName name) :
    (ofNames (before ++ [name])).strides = before.filterMap stride? ++ [.enter name] := by
  have hlast : (ofNames (before ++ [name])).octets.getLast? ≠ some Octet.slash := by
    have hend (outer : List UInt8) : (outer ++ name).getLast? ≠ some Octet.slash := by
      rw [List.getLast?_append, List.getLast?_eq_some_getLast hname.ne_nil, Option.some_or]
      exact fun heq => hname.no_slash (Option.some.inj heq ▸ List.getLast_mem hname.ne_nil)
    rw [octets_ofNames_concat]
    split
    · exact hend [Octet.slash]
    · rw [List.append_cons]
      exact hend _
  rw [strides_eq, segments_ofNames_concat hbefore hname, List.filterMap_append,
    List.filterMap_cons_none rfl, List.filterMap_cons_some (stride?_of_isName hname),
    decide_eq_false hlast, Bool.and_false, if_neg Bool.false_ne_true]
  rfl

theorem chain_ne_nil (start : Path) (reversed : List (List UInt8)) : chain start reversed ≠ [] := by
  induction reversed with
  | nil => exact List.cons_ne_nil _ _
  | cons segment before ih =>
      rw [chain]
      split
      · exact ih
      · exact List.cons_ne_nil _ _

theorem chain_concat_of_none (h : component? segment = none) (before : List (List UInt8)) :
    chain slash ([] :: (before ++ [segment])).reverse = chain slash ([] :: before).reverse := by
  have hreverse : ([] :: (before ++ [segment])).reverse = segment :: ([] :: before).reverse := by simp
  have htrivial : isTrivial segment ([] :: before).reverse = true := by
    rcases component?_eq_none_iff.mp h with rfl | rfl <;> simp [isTrivial]
  rw [hreverse, chain, if_pos htrivial]

/-- The directories above a path are those from the one that its last name, if it has any, is in. -/
theorem tail_chain_cases (h : ∀ segment ∈ segments, IsPlain segment) :
    ((∀ segment ∈ segments, component? segment = none) ∧
        (chain slash ([] :: segments).reverse).tail = []) ∨
      ∃ before name rest, segments = before ++ name :: rest ∧ IsName name ∧
        (∀ segment ∈ rest, component? segment = none) ∧
        (chain slash ([] :: segments).reverse).tail = chain slash ([] :: before).reverse := by
  induction segments using List.reverseRecOn with
  | nil => exact .inl ⟨nofun, rfl⟩
  | append_singleton front segment ih =>
      obtain ⟨hfront, hsegment⟩ := List.forall_mem_append.mp h
      rcases (hsegment segment List.mem_cons_self).cases with hnone | hname
      · have hlast : ∀ other ∈ [segment], component? other = none :=
          List.forall_mem_singleton.mpr hnone
        rw [chain_concat_of_none hnone]
        rcases ih hfront with ⟨hnothing, htail⟩ | ⟨before, name, rest, rfl, hname, hrest, htail⟩
        · exact .inl ⟨List.forall_mem_append.mpr ⟨hnothing, hlast⟩, htail⟩
        · exact .inr ⟨before, name, rest ++ [segment], by simp, hname,
            List.forall_mem_append.mpr ⟨hrest, hlast⟩, htail⟩
      · rw [chain_concat hname]
        exact .inr ⟨front, segment, [], rfl, hname, nofun, rfl⟩

theorem prefix_of_mem_chain {above : Path} (h : above ∈ chain slash ([] :: segments).reverse) :
    above.octets <+: (ofNames segments).octets := by
  induction segments using List.reverseRecOn with
  | nil =>
      rw [List.mem_singleton.mp h]
      exact List.prefix_refl _
  | append_singleton before segment ih =>
      have hlonger : (ofNames before).octets <+: (ofNames (before ++ [segment])).octets := by
        rw [octets_ofNames_concat]
        split
        · rename_i hnil
          rw [hnil]
          exact ⟨segment, rfl⟩
        · exact List.prefix_append _ _
      have hspelled := spell_ofNames (List.concat_ne_nil segment before)
      have hreverse : ([] :: (before ++ [segment])).reverse = segment :: ([] :: before).reverse := by simp
      rw [hreverse] at hspelled
      rw [hreverse, chain] at h
      split at h
      · exact (ih h).trans hlonger
      · rcases List.mem_cons.mp h with rfl | h
        · exact ⟨[], by rw [hspelled, List.append_nil]⟩
        · exact (ih h).trans hlonger

theorem prefix_of_mem_ancestors {above : Path} (h : path.isAbsolute = true)
    (habove : above ∈ path.ancestors) : above.octets <+: path.octets := by
  rcases List.mem_cons.mp habove with rfl | habove
  · exact List.prefix_refl _
  · obtain ⟨octets⟩ := path
    obtain ⟨rest, rfl⟩ := List.head?_eq_some_iff.mp (of_decide_eq_true h)
    have hsegments : segments ⟨Octet.slash :: rest⟩ = [] :: segments ⟨rest⟩ :=
      Text.fieldsBy_mark_cons _ rest
    have hspelled : ofNames (segments ⟨rest⟩) = ⟨Octet.slash :: rest⟩ :=
      congrArg (fun octets => Path.mk (Octet.slash :: octets)) (intercalate_segments ⟨rest⟩)
    rw [parents, h, if_pos rfl, hsegments] at habove
    rw [← hspelled]
    exact prefix_of_mem_chain (List.mem_of_mem_tail habove)

end GoTrace.Path
