import GoTrace.Proofs.Grammar.Balanced
import GoTrace.Wrapper.Backend

/-!
# What stands in the body of a wrapper

Names, calls and quoted texts, and the statements that open and close a span. All of them close every
bracket and every quote that they open.
-/

namespace GoTrace

open Lexeme Grammar

theorem isLoose_of_isIdentChar {c : Char} (h : isIdentChar c = true) : isLoose c = true := by
  have hmarks : (['(', ')', '[', ']', '\x7b', '\x7d', '"', '\'', '\x60', '/'].all
      fun d => !isIdentChar d) = true := by decide
  rw [isLoose, Bool.not_eq_true', List.contains_eq_mem, decide_eq_false_iff_not]
  intro hmem
  have hmark := List.all_eq_true.mp hmarks c hmem
  rw [Bool.not_eq_true'] at hmark
  exact isIdentChar_ne h hmark rfl

theorem isLineEnd_of_isIdentChar {c : Char} (h : isIdentChar c = true) : isLineEnd c = false := by
  have hfeed := isIdentChar_ne h (show isIdentChar '\n' = false by decide)
  have hreturn := isIdentChar_ne h (show isIdentChar '\r' = false by decide)
  simp [isLineEnd, hfeed, hreturn]

theorem Lexeme.IsIdentifier.balanced {name : String} (h : IsIdentifier name) :
    Balanced name.toList := by
  refine .of_all (List.all_eq_true.mpr ?_)
  intro c hc
  exact isLoose_of_isIdentChar (List.all_eq_true.mp h.all_isIdentChar c hc)

theorem Lexeme.IsIdentifier.staysOnLine {name : String} (h : IsIdentifier name) :
    name.toList.all (!isLineEnd ·) = true := by
  rw [List.all_eq_true]
  intro c hc
  rw [isLineEnd_of_isIdentChar (List.all_eq_true.mp h.all_isIdentChar c hc), Bool.not_false]

namespace Grammar.Balanced

theorem append_string {first second : String} (h : Balanced first.toList)
    (h' : Balanced second.toList) : Balanced (first ++ second).toList := by
  rw [String.toList_append]
  exact h.append h'

theorem call {callee args : String} (h : Balanced callee.toList) (h' : Balanced args.toList) :
    Balanced (callee ++ "(" ++ args ++ ")").toList := by
  have htext : (callee ++ "(" ++ args ++ ")").toList =
      callee.toList ++ '(' :: (args.toList ++ [')']) := by simp
  rw [htext]
  exact h.append h'.parens

theorem join {parts : List String} (h : ∀ part ∈ parts, Balanced part.toList) :
    Balanced (String.join parts).toList := by
  rw [String.toList_join]
  induction parts with
  | nil => exact .nil
  | cons part rest ih =>
      obtain ⟨hpart, hrest⟩ := List.forall_mem_cons.mp h
      exact hpart.append (ih hrest)

theorem quote (text : String) : Balanced (Text.quote text).toList := by
  have hquoted := Balanced.quoted text .nil
  rwa [List.append_nil] at hquoted

theorem intercalate {names : List String} (h : ∀ name ∈ names, Balanced name.toList) :
    Balanced (", ".intercalate names).toList := by
  have hcomma : Balanced ", ".toList := .of_all (by decide)
  induction names with
  | nil => exact .nil
  | cons name rest ih =>
      obtain ⟨hname, hrest⟩ := List.forall_mem_cons.mp h
      cases rest with
      | nil => exact hname
      | cons second others =>
          rw [String.intercalate_cons_cons]
          exact (hname.append_string hcomma).append_string (ih hrest)

end Grammar.Balanced

namespace Backend

section

variable (package tracer spanName name : String) (background : Option String)

theorem startSpan_openTracing_context :
    openTracing.startSpan package tracer spanName (.context name) =
      "span, " ++ name ++ " := " ++ package ++ ".StartSpanFromContextWithTracer(" ++ name ++ ", " ++
        tracer ++ ", " ++ Text.quote spanName ++ ")" := rfl

theorem startSpan_openTracing_root :
    openTracing.startSpan package tracer spanName (.root background) =
      "span := " ++ tracer ++ ".StartSpan(" ++ Text.quote spanName ++ ")" := rfl

theorem startSpan_openTelemetry_context :
    openTelemetry.startSpan package tracer spanName (.context name) =
      name ++ ", span := " ++ tracer ++ ".Start(" ++ name ++ ", " ++ Text.quote spanName ++ ")" := rfl

theorem startSpan_openTelemetry_root :
    openTelemetry.startSpan package tracer spanName (.root background) =
      "_, span := " ++ tracer ++ ".Start(" ++ background.getD contextPath ++ ".Background(), " ++
        Text.quote spanName ++ ")" := rfl

end

variable {package tracer : String} (spanName : String) (hpackage : Balanced package.toList)
  (htracer : Balanced tracer.toList)

include htracer

theorem balanced_openTracing_root (background : Option String) :
    Balanced (openTracing.startSpan package tracer spanName (.root background)).toList := by
  have htext : openTracing.startSpan package tracer spanName (.root background) =
      String.join ["span := ", tracer, ".StartSpan"] ++ "(" ++ Text.quote spanName ++ ")" := by
    rw [startSpan_openTracing_root]
    have hopen : ".StartSpan(" = ".StartSpan" ++ "(" := rfl
    simp only [hopen, String.join, List.foldl, String.empty_append, String.append_assoc]
  rw [htext]
  refine .call (.join ?_) (.quote spanName)
  simp only [List.forall_mem_cons]
  exact ⟨.of_all (by decide), htracer, .of_all (by decide), nofun⟩

theorem balanced_openTelemetry_root (background : Option String)
    (hbackground : Balanced (background.getD contextPath).toList) :
    Balanced (openTelemetry.startSpan package tracer spanName (.root background)).toList := by
  have htext : openTelemetry.startSpan package tracer spanName (.root background) =
      String.join ["_, span := ", tracer, ".Start"] ++ "(" ++
        (String.join [background.getD contextPath, ".Background"] ++ "(" ++ "" ++ ")" ++
          (", " ++ Text.quote spanName)) ++ ")" := by
    rw [startSpan_openTelemetry_root]
    have hopen : ".Start(" = ".Start" ++ "(" := rfl
    have hcall : ".Background(), " = ".Background" ++ "(" ++ "" ++ ")" ++ ", " := rfl
    simp only [hopen, hcall, String.join, List.foldl, String.empty_append, String.append_assoc]
  rw [htext]
  have hcall : Balanced (String.join [background.getD contextPath, ".Background"] ++ "(" ++ "" ++
      ")").toList := by
    refine .call (.join ?_) .nil
    simp only [List.forall_mem_cons]
    exact ⟨hbackground, .of_all (by decide), nofun⟩
  have hcomma : Balanced ", ".toList := .of_all (by decide)
  refine .call (.join ?_) (hcall.append_string (hcomma.append_string (.quote spanName)))
  simp only [List.forall_mem_cons]
  exact ⟨.of_all (by decide), htracer, .of_all (by decide), nofun⟩

include hpackage

theorem balanced_openTracing_context {name : String} (hname : Balanced name.toList) :
    Balanced (openTracing.startSpan package tracer spanName (.context name)).toList := by
  have htext : openTracing.startSpan package tracer spanName (.context name) =
      String.join ["span, ", name, " := ", package, ".StartSpanFromContextWithTracer"] ++ "(" ++
        String.join [name, ", ", tracer, ", ", Text.quote spanName] ++ ")" := by
    rw [startSpan_openTracing_context]
    have hopen : ".StartSpanFromContextWithTracer(" =
      ".StartSpanFromContextWithTracer" ++ "(" := rfl
    simp only [hopen, String.join, List.foldl, String.empty_append, String.append_assoc]
  rw [htext]
  have hcomma : Balanced ", ".toList := .of_all (by decide)
  refine .call (.join ?_) (.join ?_)
  · simp only [List.forall_mem_cons]
    exact ⟨.of_all (by decide), hname, .of_all (by decide), hpackage, .of_all (by decide), nofun⟩
  · simp only [List.forall_mem_cons]
    exact ⟨hname, hcomma, htracer, hcomma, .quote spanName, nofun⟩

omit hpackage in
theorem balanced_openTelemetry_context {name : String} (hname : Balanced name.toList) :
    Balanced (openTelemetry.startSpan package tracer spanName (.context name)).toList := by
  have htext : openTelemetry.startSpan package tracer spanName (.context name) =
      String.join [name, ", span := ", tracer, ".Start"] ++ "(" ++
        String.join [name, ", ", Text.quote spanName] ++ ")" := by
    rw [startSpan_openTelemetry_context]
    have hopen : ".Start(" = ".Start" ++ "(" := rfl
    simp only [hopen, String.join, List.foldl, String.empty_append, String.append_assoc]
  rw [htext]
  refine .call (.join ?_) (.join ?_)
  · simp only [List.forall_mem_cons]
    exact ⟨hname, .of_all (by decide), htracer, .of_all (by decide), nofun⟩
  · simp only [List.forall_mem_cons]
    exact ⟨hname, .of_all (by decide), .quote spanName, nofun⟩

theorem balanced_startSpan (backend : Backend) {parent : SpanParent}
    (hcontext : ∀ name, parent = .context name → Balanced name.toList)
    (hroot : ∀ background, parent = .root background →
      Balanced (background.getD contextPath).toList) :
    Balanced (backend.startSpan package tracer spanName parent).toList := by
  cases backend with
  | openTracing =>
      cases parent with
      | context name =>
          exact balanced_openTracing_context spanName hpackage htracer (hcontext name rfl)
      | root background => exact balanced_openTracing_root spanName htracer background
  | openTelemetry =>
      cases parent with
      | context name => exact balanced_openTelemetry_context spanName htracer (hcontext name rfl)
      | root background =>
          exact balanced_openTelemetry_root spanName htracer background (hroot background rfl)

omit hpackage htracer in
theorem balanced_finishSpan (backend : Backend) : Balanced backend.finishSpan.toList := by
  have hfinish (word : String) (h : word.toList.all isLoose = true) :
      Balanced (word ++ "(" ++ "" ++ ")").toList := .call (.of_all h) .nil
  cases backend with
  | openTracing => exact hfinish "defer span.Finish" (by decide)
  | openTelemetry => exact hfinish "defer span.End" (by decide)

end Backend

end GoTrace
