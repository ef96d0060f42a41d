import GoTrace.Signature.Descriptor
import GoTrace.Text.Quoted

/-!
# Tracing libraries

A backend says which package provides the tracer, and which statements open and close a span.
-/

namespace GoTrace

/-- A tracing library that generated code can call. -/
inductive Backend where
  | openTracing
  | openTelemetry
deriving DecidableEq, Repr, Inhabited

/-- How a span gets its parent. -/
inductive SpanParent where
  | context (name : String)
  /-- The span has none; `background` is what the file calls the package `context`, if it is
  imported. -/
  | root (background : Option String)
deriving DecidableEq, Repr

def contextPath : String := "context"

namespace Backend

def all : List Backend := [.openTracing, .openTelemetry]

def name : Backend → String
  | openTracing => "opentracing"
  | openTelemetry => "opentelemetry"

def ofName? (name : String) : Option Backend :=
  all.find? fun backend => backend.name = name

def package : Backend → PackageRef
  | openTracing => ⟨"github.com/opentracing/opentracing-go", "opentracing"⟩
  | openTelemetry => ⟨"go.opentelemetry.io/otel/trace", "trace"⟩

def tracerType (backend : Backend) : Descriptor :=
  .named (some backend.package) "Tracer"

def needsBackground (backend : Backend) : Bool :=
  backend = openTelemetry

/-- The statement that opens the span `spanName`. The file calls the package of the backend
`package`, and `tracer` is the expression that holds the tracer. -/
def startSpan (backend : Backend) (package tracer spanName : String) (parent : SpanParent) :
    String :=
  let quoted := Text.quote spanName
  match backend, parent with
  | openTracing, .context ctx =>
      s!"span, {ctx} := {package}.StartSpanFromContextWithTracer({ctx}, {tracer}, {quoted})"
  | openTracing, .root _ => s!"span := {tracer}.StartSpan({quoted})"
  | openTelemetry, .context ctx => s!"{ctx}, span := {tracer}.Start({ctx}, {quoted})"
  | openTelemetry, .root background =>
      let context := background.getD contextPath
      s!"_, span := {tracer}.Start({context}.Background(), {quoted})"

def finishSpan : Backend → String
  | openTracing => "defer span.Finish()"
  | openTelemetry => "defer span.End()"

end Backend

end GoTrace
