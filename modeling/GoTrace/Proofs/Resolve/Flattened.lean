import GoTrace.Proofs.Resolve.Transparency
import GoTrace.Proofs.Signature.Flattening
import Mathlib.Data.List.Forall2

/-!
# Resolved interfaces are flattened declarations

An interface that resolves has the methods that the elements of its declaration bring together, where
each embedded interface brings what it resolves to by itself.
-/

namespace GoTrace

open Resolution

/-- What an element of a declaration brings by itself: its method, or the methods of the interface it
embeds, as a fresh resolver finds them. -/
inductive Contributes (loader : Loader) (scope : Scope) : Element → Contribution → Prop
  | own {name : Ident} {signature : Signature} {span : Span} {method : Method} :
      answer (Resolution.method loader scope name.name signature) Session.empty = .ok method →
        method.name = name.name →
          Contributes loader scope (.method name signature span) (.own method)
  | sibling {type : TypeExpr} {name : String} {span : Span} {interface : Interface} :
      type.unparen = .name none name [] → (scope.package.findType name).isSome = true →
        answer (Resolution.interface loader scope.package.path name) Session.empty =
          .ok interface →
          Contributes loader scope (.embed [⟨false, type⟩] span) (.embedded interface)
  | foreign {type : TypeExpr} {aliasName path name : String} {span : Span}
      {interface : Interface} :
      type.unparen = .name (some aliasName) name [] →
        scope.imports.pathOf aliasName = some path →
          answer (Resolution.interface loader path name) Session.empty = .ok interface →
            Contributes loader scope (.embed [⟨false, type⟩] span) (.embedded interface)
  /-- The predeclared `error`, unless the package declares a type of that name. -/
  | error {type : TypeExpr} {span : Span} :
      type.unparen = .name none "error" [] → scope.package.findType "error" = none →
        Contributes loader scope (.embed [⟨false, type⟩] span) (.embedded .builtinError)

namespace Resolution

variable {loader : Loader} {scope : Scope} {kept : List (InterfaceKey × Interface)}
  {session : Session}

theorem name_of_answer_method {name : String} {signature : Signature} {found : Method}
    (h : answer (method loader scope name signature) session = .ok found) :
    found.name = name := by
  obtain ⟨params, -, h⟩ := exists_answer_of_bind h
  obtain ⟨results, -, h⟩ := exists_answer_of_bind h
  cases h
  rfl

variable (steady : loader.Steady) (hscope : loader.Holds scope.package)
  (hsession : session.Sound loader [])
  (hkept : ∀ path name found, kept.lookup (path, name) = some found →
    answer (interface loader path name) Session.empty = .ok found)

include hkept

theorem contributes_of_answer_embed {declared : String} {type : TypeExpr} {span : Span}
    {found : Interface}
    (h : answer (embed loader (oracle kept) scope declared type) session = .ok found) :
    Contributes loader scope (.embed [⟨false, type⟩] span) (.embedded found) := by
  unfold embed at h
  split at h
  · rename_i name htype
    split at h
    · rename_i hfound
      exact .sibling htype hfound (hkept _ _ _ (lookup_of_answer_embeddedInterface h))
    · rename_i hfound
      split at h
      · rename_i herror
        cases h
        subst herror
        exact .error htype (Option.not_isSome_iff_eq_none.mp hfound)
      · split at h
        · cases h
        · cases h
  · rename_i aliasName name htype
    obtain ⟨path, hpath, h⟩ := exists_answer_of_bind h
    obtain ⟨foreign, -, h⟩ := exists_answer_of_bind h
    have himports : scope.imports.pathOf aliasName = some path := by
      unfold packagePath at hpath
      split at hpath
      · cases hpath
        assumption
      · cases hpath
    split at h
    · cases h
    · exact .foreign htype himports (hkept _ _ _ (lookup_of_answer_embeddedInterface h))
  · cases h
  · cases h
  · cases h

include steady hscope hsession

theorem contributes_of_answer_addElement {declared : String} {methods later : MethodSet}
    {element : Element}
    (h : answer (addElement loader (oracle kept) scope declared methods element) session =
      .ok later) :
    ∃ part, Contributes loader scope element part ∧ later = part.addTo methods := by
  unfold addElement at h
  split at h
  · rename_i name signature span
    obtain ⟨method, hmethod, h⟩ := exists_answer_of_bind h
    cases h
    refine ⟨.own method, .own ?_ (name_of_answer_method hmethod), rfl⟩
    obtain ⟨result, hresult, -⟩ := method_settled steady hscope name.name signature
    rw [hresult.answer hsession.coherent] at hmethod
    rw [hresult.answer (Session.coherent_empty loader), hmethod]
  · obtain ⟨interface, hinterface, h⟩ := exists_answer_of_bind h
    cases h
    exact ⟨.embedded interface,
      contributes_of_answer_embed hkept hinterface, rfl⟩
  · cases h
  · cases h

omit steady hscope hsession hkept in
theorem oracle_consistent (kept : List (InterfaceKey × Interface)) (path name : String) :
    Consistent loader [] (oracle kept path name) (oracle kept path name) := by
  refine ⟨oracle_keeps _ _ _, oracle_keeps _ _ _, fun _ _ _ _ => ?_⟩
  unfold oracle
  split <;> rfl

theorem contributes_of_answer_members {declared : String} {methods : MethodSet}
    {elements : List Element}
    (h : answer (members loader (oracle kept) scope declared elements) session = .ok methods) :
    ∃ parts, List.Forall₂ (Contributes loader scope) elements parts ∧
      methods = Contribution.flatten parts := by
  unfold members at h
  unfold Contribution.flatten
  generalize Roster.empty = start at h ⊢
  induction elements generalizing start session with
  | nil =>
      cases h
      exact ⟨[], .nil, rfl⟩
  | cons element rest ih =>
      rw [List.foldlM_cons] at h
      obtain ⟨between, hbetween, h⟩ := exists_answer_of_bind h
      obtain ⟨part, hpart, rfl⟩ :=
        contributes_of_answer_addElement steady hscope hsession hkept hbetween
      have hkeeps := ((consistency loader []).addElement steady (oracle_consistent kept) hscope declared
        start element).keeps
      obtain ⟨hsound, -⟩ := hkeeps _ hsession (by rw [hbetween]; trivial)
      obtain ⟨parts, hparts, rfl⟩ := ih hsound _ h
      exact ⟨part :: parts, .cons hpart hparts, rfl⟩

end Resolution

theorem Library.answer_interface_of_kept (library : Library)
    {kept : List (InterfaceKey × Interface)} (hbuilt : Built library.loader kept)
    {path name : String} {found : Interface} (hkept : kept.lookup (path, name) = some found) :
    answer (interface library.loader path name) Session.empty = .ok found := by
  have hempty := Session.sound_empty library.loader
  have hends := library.interface_ends path name Session.empty
  rw [answer_interface] at hends ⊢
  exact hbuilt.answer_interfaceUpTo library.steady hkept (by simp) _ hempty hends

/-- An interface that was found is what its declaration gives from others that can be found. -/
theorem Library.exists_declaredInterface (library : Library) {path name : String}
    {found : Interface}
    (h : answer (interface library.loader path name) Session.empty = .ok found) :
    ∃ kept, Built library.loader kept ∧
      answer (declaredInterface library.loader (oracle kept) path name) Session.empty =
        .ok found := by
  have hempty := Session.sound_empty library.loader
  obtain ⟨hsound, hlookup⟩ := kept_of_answer_interface library.steady hempty h
  obtain ⟨older, hbuilt, -, -, hdeclared⟩ := hsound.built.exists_older hlookup
  exact ⟨older, hbuilt, hdeclared.answer hempty.coherent⟩

/-- The methods of a resolved interface are the flattening of what the elements of its declaration
bring. -/
theorem Session.flattening_of_interface (library : Library) {session : Session}
    (h : session.Secluded library.loader) {path name : String} {package : Package} {unit : Nat}
    {spec : TypeSpec} {elements : List Element} {found : Interface}
    (hpackage : answer (Resolution.package library.loader path) Session.empty = .ok package)
    (hfind : package.findType name = some (unit, spec))
    (hspec : spec.type.unparen = .interface elements)
    (hfound : answer (interface library.loader path name) session = .ok found) :
    ∃ scope parts, answer (Resolution.scope library.loader path unit) Session.empty = .ok scope ∧
      scope.package = package ∧ List.Forall₂ (Contributes library.loader scope) elements parts ∧
        Flattening parts found.methods := by
  have steady := library.steady
  rw [library.answer_interface_eq (h.sound steady)] at hfound
  obtain ⟨kept, hbuilt, hanswer⟩ := library.exists_declaredInterface hfound
  have hempty := Session.sound_empty library.loader
  have hsettles := package_settles steady path
  have hholds : library.loader.Holds package := by
    rw [hsettles.answer hempty.coherent] at hpackage
    exact steady.holds_of_parsed hpackage
  have hsound := hsettles.sound hempty
  obtain ⟨package', hpackage', hanswer⟩ := exists_answer_of_bind hanswer
  obtain rfl := Except.ok.inj (hpackage.symm.trans hpackage')
  simp only [hfind] at hanswer
  split at hanswer
  · cases hanswer
  · obtain ⟨imports, himports, hanswer⟩ := exists_answer_of_bind hanswer
    simp only [hspec] at hanswer
    obtain ⟨methods, hmethods, hanswer⟩ := exists_answer_of_bind hanswer
    cases hanswer
    have hlater := (importTable_settles hholds unit).sound hsound
    obtain ⟨parts, hparts, rfl⟩ := contributes_of_answer_members steady hholds hlater
      (fun _ _ _ => library.answer_interface_of_kept hbuilt) hmethods
    refine ⟨⟨package, unit, imports⟩, parts, ?_, rfl, hparts, Contribution.flattening_flatten parts⟩
    simp only [scope, answer_bind, hpackage, himports, answer_pure]

/-- A package in which two embedded interfaces overlap with each other and with methods that are
declared before and after them. -/
def Library.overlap : Library :=
  Library.empty.add "a"
    ⟨"a.go", "package a\ntype R interface \x7b Read(); Close() \x7d\n" ++
      "type W interface \x7b Close(); Write() \x7d\n" ++
      "type A interface \x7b Write(n int); R; W; Close() \x7d"⟩

/-- The elements that the first package at `path` declares for the interface `name`. -/
def Library.elements? (library : Library) (path name : String) : Option (List Element) := do
  let package ← (answer (Resolution.package library.loader path) Session.empty).toOption
  let (_, spec) ← package.findType name
  match spec.type.unparen with
  | .interface elements => some elements
  | _ => none

theorem Session.flattening_of_interface_overlap :
    ∃ package unit spec elements found,
      answer (Resolution.package Library.overlap.loader "a") Session.empty = .ok package ∧
      package.findType "A" = some (unit, spec) ∧ spec.type.unparen = .interface elements ∧
      answer (interface Library.overlap.loader "a" "A") Session.empty = .ok found ∧
      found.methods.keys = ["Write", "Read", "Close"] ∧
      ∃ scope parts,
        answer (Resolution.scope Library.overlap.loader "a" unit) Session.empty = .ok scope ∧
          scope.package = package ∧
          List.Forall₂ (Contributes Library.overlap.loader scope) elements parts ∧
            Flattening parts found.methods := by
  have helements : (Library.overlap.elements? "a" "A").isSome = true := by decide +kernel
  have hkeys : (answer (interface Library.overlap.loader "a" "A") Session.empty).toOption.map
      (·.methods.keys) = some ["Write", "Read", "Close"] := by decide +kernel
  have hsession : Session.Secluded Library.overlap.loader .empty := .empty
  unfold Library.elements? at helements
  cases hpackage : answer (Resolution.package Library.overlap.loader "a") Session.empty with
  | error failure =>
      rw [hpackage] at helements
      cases helements
  | ok package =>
      rw [hpackage] at helements
      cases hfind : package.findType "A" with
      | none => simp [Except.toOption, hfind] at helements
      | some entry =>
          simp only [Except.toOption, Option.bind_eq_bind, Option.bind_some, hfind] at helements
          split at helements
          · rename_i elements hspec
            cases hfound : answer (interface Library.overlap.loader "a" "A") Session.empty with
            | error failure => simp [hfound, Except.toOption] at hkeys
            | ok found =>
                rw [hfound] at hkeys
                exact ⟨package, entry.1, entry.2, elements, found, rfl, hfind, hspec, rfl,
                  Option.some.inj hkeys,
                  Session.flattening_of_interface Library.overlap hsession hpackage hfind hspec
                    hfound⟩
          · cases helements

end GoTrace
