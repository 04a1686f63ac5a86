import LookupTap.Log

/-! Where metrics are sent.

The endpoint is a variable of the environment. Unset or empty, it turns the export off; a
value without a scheme gets the plain one. -/
namespace LookupTap.Telemetry

/-- The variable that holds the endpoint. -/
def endpointName : String := "OTEL_EXPORTER_OTLP_ENDPOINT"

/-- The endpoint that a value of the variable stands for. -/
def endpoint? (value : Option String) : Option String :=
  match value with
  | none => none
  | some v =>
    if v.isEmpty then none
    else if v.startsWith "http://" ∨ v.startsWith "https://" then some v
    else some ("http://" ++ v)

def info (text : String) : Line := ⟨.info, .telemetry, text⟩

/-- The line that says the endpoint, or that there is none. -/
def endpointLine : Option String → Line
  | none => info s!"{endpointName} not set. Metrics export disabled."
  | some e => info s!"OTLP endpoint: {e}"

/-- The lines of the start. -/
def startLines : Option String → List Line
  | none => [endpointLine none]
  | some e =>
    [info "Initializing OpenTelemetry metrics exporter", endpointLine (some e),
      info "OpenTelemetry metrics initialized successfully"]

/-- The lines of the end, when nobody answers at the endpoint. -/
def stopLines : Option String → List Line
  | none => []
  | some _ =>
    [info "Shutting down OpenTelemetry metrics...",
      ⟨.warn, .telemetry, "Failed to shutdown MeterProvider"⟩]

end LookupTap.Telemetry
