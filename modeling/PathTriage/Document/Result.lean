import PathTriage.Batch
import PathTriage.Document.Node
import PathTriage.Store.Update

/-!
Scores, analyses, statistics and update results as JSON documents. Scores have four places.
-/

namespace PathTriage

/-- A score with four places. An integer keeps its value. -/
def Json.ofScore (v : Json) : Json :=
  match v.number? with
  | some (.int n) => .ofInt n
  | some (.float x) => .ofFloat (Decimal.roundTo 4 x)
  | none => v

/-- The signs of completeness as a document. -/
def Completeness.toJson (c : Completeness Json) : Json := .object
  [("exception_handling", .ofScore c.exceptionHandling),
   ("test_coverage", .ofScore c.testCoverage),
   ("parameter_validation", .ofScore c.parameterValidation),
   ("logging", .ofScore c.logging),
   ("resource_management", .ofScore c.resourceManagement)]

/-- The intent of a path as a document. -/
def IntentWeight.toJson (w : IntentWeight Json) : Json := .object
  [("total_weight", .ofScore w.total),
   ("business_value", .ofScore w.business),
   ("implementation_completeness", .ofScore w.completeness),
   ("code_quality", .ofScore w.quality),
   ("confidence", .ofScore w.confidence),
   ("business_keywords", .ofStrings w.keywords),
   ("quality_indicators", .object
     [("complexity", .ofName w.complexityGrade), ("test_coverage", .ofName w.coverageGrade)]),
   ("completeness_indicators", w.signs.toJson)]

/-- The intent of a method as a document. -/
def MethodIntent.toJson (w : MethodIntent Json) : Json := .object
  [("method_id", .string w.methodId),
   ("weight", .ofScore w.weight),
   ("business_value", .ofScore w.business),
   ("completeness", .ofScore w.completeness),
   ("quality", .ofScore w.quality),
   ("intent_type", .ofName w.purpose),
   ("confidence", .ofScore w.confidence)]

/-- The risk of a path as a document. -/
def RiskWeight.toJson (w : RiskWeight Json) : Json := .object
  [("total_risk", .ofScore w.total),
   ("architectural_risk", .ofScore w.architectural),
   ("blast_radius", .ofScore w.blastRadius),
   ("change_complexity", .ofScore w.changeComplexity),
   ("data_flow_risk", .ofScore w.dataFlow),
   ("risk_level", .ofName w.level),
   ("confidence", .ofScore w.confidence),
   ("critical_methods", .ofStrings w.details.criticalMethods),
   ("risk_factors", .ofStrings w.details.factors),
   ("mitigation_suggestions", .ofStrings w.details.suggestions),
   ("impacted_components", .ofStrings w.details.impactedComponents)]

/-- The risk of a method as a document. -/
def MethodRisk.toJson (w : MethodRisk Json) : Json := .object
  [("method_id", .string w.methodId),
   ("total_risk", .ofScore w.total),
   ("architectural_risk", .ofScore w.architectural),
   ("complexity_risk", .ofScore w.complexity),
   ("dependency_risk", .ofScore w.dependency),
   ("change_history_risk", .ofScore w.changeHistory),
   ("risk_category", .ofName w.concern),
   ("criticality", .ofScore w.criticality)]

/-- An analysed path as a document. -/
def Analyzed.toJson (a : Analyzed Json) : Json := .object
  [("path", a.path.toJson),
   ("path_type", .ofName a.pathClass),
   ("priority", .ofName a.priority),
   ("confidence", .ofScore a.confidence),
   ("intent", a.intent.toJson),
   ("risk", a.risk.toJson)]

/-- A summary as a document. -/
def Summary.toJson (s : Summary) : Json := .object
  [("total_paths", .ofInt s.totalPaths),
   ("golden_path_count", .ofInt s.goldenCount),
   ("risk_path_count", .ofInt s.riskCount),
   ("neutral_path_count", .ofInt s.neutralCount),
   ("golden_path_ratio", .ofScore s.goldenRatio),
   ("risk_path_ratio", .ofScore s.riskRatio),
   ("average_intent_weight", .ofScore s.averageIntent),
   ("average_risk_weight", .ofScore s.averageRisk),
   ("average_confidence", .ofScore s.averageConfidence)]

/-- Quality metrics as a document. -/
def QualityMetrics.toJson (q : QualityMetrics) : Json := .object
  [("code_quality_score", .ofScore q.codeQuality),
   ("architectural_health", .ofScore q.architecturalHealth),
   ("test_maturity", .ofScore q.testMaturity),
   ("business_alignment", .ofScore q.businessAlignment),
   ("overall_score", .ofScore q.overall)]

/-- A report as a document. -/
def Report.toJson (r : Report) : Json := .object
  [("summary", r.summary.toJson),
   ("key_findings", .ofStrings r.keyFindings),
   ("recommendations", .ofStrings r.recommendations),
   ("risk_factors", .ofStrings r.riskFactors),
   ("opportunity_areas", .ofStrings r.opportunityAreas),
   ("quality_metrics", r.quality.toJson)]

/-- An analysis as a document, with the time at which it was made. -/
def Analysis.toJson (now : String) (a : Analysis) : Json := .object
  [("golden_paths", .array (a.golden.map (·.toJson))),
   ("risk_paths", .array (a.risk.map (·.toJson))),
   ("neutral_paths", .array (a.neutral.map (·.toJson))),
   ("report", a.report.toJson),
   ("total_analyzed_paths", .ofInt a.total),
   ("processing_timestamp", .string now),
   ("incomplete", .bool a.incomplete),
   ("skipped_path_ids", .ofStrings a.skipped),
   ("errors", .ofStrings a.errors)]

/-- Statistics as a document. -/
def Statistics.toJson (s : Statistics) : Json := .object
  [("node_count", .ofInt s.nodeCount),
   ("edge_count", .ofInt s.linkCount),
   ("method_count", .ofInt s.methodCount),
   ("class_count", .ofInt s.classCount),
   ("average_complexity", .ofScore s.averageComplexity),
   ("hotspot_methods", .ofStrings s.hotspots),
   ("risk_distribution", .object
     (s.riskDistribution.map fun d => (Named.name d.1, .ofInt d.2)))]

/-- The result of an update as a document. -/
def UpdateResult.toJson (r : UpdateResult) : Json := .object
  [("success", .bool r.success),
   ("affected_nodes", .ofInt r.tally.nodes),
   ("affected_edges", .ofInt r.tally.links),
   ("errors", .ofStrings r.errors)]

end PathTriage
