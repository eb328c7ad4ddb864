import PathTriage.Proofs.Batch.Partition
import PathTriage.Proofs.Leading

/-!
The frequency tables of a report.

Three places of a report rank texts by how often they occur: the summary of risk factors, the
finding about dominant ones, and the keywords among the opportunities. All of them show the
beginning of one ranking (`ranked`), so that the findings agree with the summary, and the ranking
depends on nothing but the numbers of occurrences. The two sections made of several lines are looked
at through the labels that the lines start with.
-/

namespace PathTriage.Report

open Outcome

/-! ## Rankings -/

/-- The texts of a list, each once, the most frequent first. -/
def ranked (texts : List String) : List String := Order.ranking texts.count texts.eraseDups

theorem frequencies_eq (texts : List String) :
    frequencies texts = (ranked texts).map fun t => (t, texts.count t) :=
  Order.sortBy_eq_map_ranking texts.count texts.eraseDups

theorem leads_ranked (texts : List String) (limit : Nat) :
    Order.Leads texts.count texts.toFinset limit ((ranked texts).take limit) := by
  have heach : texts.eraseDups.toFinset = texts.toFinset := by
    ext t
    rw [List.mem_toFinset, List.mem_toFinset, List.mem_eraseDups]
  rw [← heach]
  exact Order.leads_ranking texts.count (Order.nodup_eraseDups texts) limit

/-- A ranking by frequency forgets the order of the occurrences. -/
theorem ranked_eq_of_perm {texts texts' : List String} (h : texts.Perm texts') :
    ranked texts = ranked texts' := by
  have hcount : texts.count = texts'.count := by
    funext t
    exact h.count_eq t
  have heach : texts.eraseDups.Perm texts'.eraseDups := by
    refine (List.perm_ext_iff_of_nodup (Order.nodup_eraseDups _) (Order.nodup_eraseDups _)).2
      fun t => ?_
    rw [List.mem_eraseDups, List.mem_eraseDups, h.mem_iff]
  rw [ranked, ranked, hcount, Order.ranking_eq_of_perm _ heach]

/-! ## Lines and their labels -/

/-- The lines that start with a label. -/
def linesWith (label : String) (lines : List String) : List String :=
  lines.filter fun line => label.toList.isPrefixOf line.toList

/-- A line that lists texts after a label. Without texts there is none. -/
def labelled (label : String) (texts : List String) : List String :=
  if texts.isEmpty then [] else [label ++ listed texts]

variable {label : String}

theorem linesWith_append (lines lines' : List String) :
    linesWith label (lines ++ lines') = linesWith label lines ++ linesWith label lines' :=
  List.filter_append lines lines'

theorem linesWith_eq_nil {lines : List String}
    (h : ∀ line ∈ lines, label.toList.isPrefixOf line.toList = false) :
    linesWith label lines = [] :=
  List.filter_eq_nil_iff.2 fun line hline => by rw [h line hline]; exact Bool.false_ne_true

theorem linesWith_labelled (texts : List String) :
    linesWith label (labelled label texts) = labelled label texts := by
  refine List.filter_eq_self.2 fun line hline => ?_
  unfold labelled at hline
  split at hline
  · exact absurd hline List.not_mem_nil
  · rw [List.mem_singleton.1 hline, String.toList_append, List.isPrefixOf_iff_prefix]
    exact List.prefix_append _ _

/-- No line that starts with another label starts with this one. -/
theorem isPrefixOf_append_eq_false {other : String}
    (h : ∀ rest, label.toList.isPrefixOf (other.toList ++ rest) = false) (rest : String) :
    label.toList.isPrefixOf (other ++ rest).toList = false := by
  rw [String.toList_append]
  exact h rest.toList

theorem linesWith_labelled_other {other : String}
    (h : ∀ rest, label.toList.isPrefixOf (other.toList ++ rest) = false) (texts : List String) :
    linesWith label (labelled other texts) = [] := by
  unfold labelled
  split
  · rfl
  · refine linesWith_eq_nil fun line hline => ?_
    rw [List.mem_singleton.1 hline]
    exact isPrefixOf_append_eq_false h _

/-- No line that starts with a number starts with a label. -/
theorem isPrefixOf_number_eq_false {c : Char} {tail : List Char} (hlabel : label.toList = c :: tail)
    (hc : c.isDigit = false) (n : Nat) (rest : String) :
    label.toList.isPrefixOf (toString n ++ rest).toList = false := by
  have hnumber : (toString n).toList = Nat.toDigits 10 n := by
    rw [Nat.toString_eq_repr, Nat.repr, String.toList_ofList]
  obtain ⟨d, ds, hdigits⟩ := List.exists_cons_of_ne_nil (Nat.toDigits_ne_nil (n := n) (b := 10))
  have hd : d.isDigit = true :=
    Nat.isDigit_of_mem_toDigits (by decide) (by decide) (hdigits ▸ List.mem_cons_self)
  have hne : (c == d) = false := by
    rw [beq_eq_false_iff_ne]
    rintro rfl
    exact absurd hd (by rw [hc]; exact Bool.false_ne_true)
  rw [String.toList_append, hnumber, hdigits, hlabel, List.cons_append,
    List.isPrefixOf_cons_cons, hne,
    Bool.false_and]

/-! ## Sections -/

section Sections

variable {golden risk neutral : List (Analyzed Json)}

/-- The risk factors of paths, as often as they occur. -/
def factorsOf (paths : List (Analyzed Json)) : List String :=
  paths.flatMap fun p => p.risk.details.factors

/-- The business keywords of paths, as often as they occur. -/
def keywordsOf (paths : List (Analyzed Json)) : List String :=
  paths.flatMap fun p => p.intent.keywords

theorem riskFactorSummary_eq (paths : List (Analyzed Json)) :
    riskFactorSummary paths = ((ranked (factorsOf paths)).take 10).map fun f =>
      s!"{f} ({(factorsOf paths).count f} occurrences)" := by
  rw [riskFactorSummary, factorCounts, frequencies_eq, ← List.map_take, List.map_map]
  rfl

theorem dominantFinding_eq (paths : List (Analyzed Json)) :
    dominantFinding paths =
      labelled "Dominant risk factors: " ((ranked (factorsOf paths)).take 3) := by
  have hfirst : ((factorCounts paths).take 3).map (·.1) = (ranked (factorsOf paths)).take 3 := by
    rw [factorCounts, frequencies_eq, ← List.map_take, List.map_map]
    exact List.map_id _
  rw [dominantFinding, hfirst]
  rfl

theorem topKeywords_eq (golden : List (Analyzed Json)) :
    topKeywords golden = (ranked (keywordsOf golden)).take 5 := by
  rw [topKeywords, frequencies_eq, ← List.map_take, List.map_map]
  exact List.map_id _

theorem exists_of_mem_topFinding {text : String} {write : Json → Except Failure String}
    {scores : List Json} {lines : List String} (h : topFinding text write scores = .ok lines)
    {line : String} (hline : line ∈ lines) : ∃ rest, line = "Found " ++ rest := by
  cases scores with
  | nil =>
    cases h
    exact absurd hline List.not_mem_nil
  | cons v rest =>
    obtain ⟨top, -, h⟩ := bind_eq_ok.1 h
    obtain ⟨shown, -, h⟩ := bind_eq_ok.1 h
    cases h
    rw [List.mem_singleton.1 hline, String.append_assoc, String.append_assoc]
    exact ⟨_, rfl⟩

theorem exists_of_mem_coverageFinding {paths : List (Analyzed Json)} {lines : List String}
    (h : coverageFinding paths = .ok lines) {line : String} (hline : line ∈ lines) :
    ∃ rest, line = "Overall test coverage across analyzed paths: " ++ rest := by
  unfold coverageFinding at h
  split at h
  · cases h
    exact absurd hline List.not_mem_nil
  · obtain ⟨mean, -, h⟩ := bind_eq_ok.1 h
    obtain ⟨shown, -, h⟩ := bind_eq_ok.1 h
    cases h
    exact ⟨shown, List.mem_singleton.1 hline⟩

theorem linesWith_countFinding {c : Char} {tail : List Char} (hlabel : label.toList = c :: tail)
    (hc : c.isDigit = false) (n : Nat) (text : String) :
    linesWith label (countFinding n text) = [] := by
  unfold countFinding
  split
  · rfl
  · refine linesWith_eq_nil fun line hline => ?_
    rw [List.mem_singleton.1 hline, String.append_assoc]
    exact isPrefixOf_number_eq_false hlabel hc n _

/-- The findings name dominant risk factors in one line, if at all: the first three of the
    ranking. -/
theorem linesWith_findings {lines : List String} (h : findings golden risk neutral = .ok lines) :
    linesWith "Dominant risk factors: " lines =
      labelled "Dominant risk factors: "
        ((ranked (factorsOf (golden ++ risk ++ neutral))).take 3) := by
  obtain ⟨goldenLines, hgolden, h⟩ := bind_eq_ok.1 h
  obtain ⟨riskLines, hrisk, h⟩ := bind_eq_ok.1 h
  obtain ⟨coverageLines, hcoverage, h⟩ := bind_eq_ok.1 h
  have hfound : ∀ {text write scores found}, topFinding text write scores = .ok found →
      linesWith "Dominant risk factors: " found = [] := by
    intro text write scores found hfound
    refine linesWith_eq_nil fun line hline => ?_
    obtain ⟨rest, rfl⟩ := exists_of_mem_topFinding hfound hline
    exact isPrefixOf_append_eq_false (fun _ => rfl) rest
  have hoverall : linesWith "Dominant risk factors: " coverageLines = [] := by
    refine linesWith_eq_nil fun line hline => ?_
    obtain ⟨rest, rfl⟩ := exists_of_mem_coverageFinding hcoverage hline
    exact isPrefixOf_append_eq_false (fun _ => rfl) rest
  have hcount := @linesWith_countFinding "Dominant risk factors: " 'D' _ rfl rfl
  cases h
  simp only [linesWith_append, hfound hgolden, hfound hrisk, hoverall, hcount, dominantFinding_eq,
    linesWith_labelled, List.nil_append, List.append_nil]

/-- The opportunities name business keywords in one line, if at all: the first five of the
    ranking. -/
theorem gives_keywords (golden : List (Analyzed Json)) :
    Gives (fun areas => linesWith "Business keywords in golden paths: " areas =
      labelled "Business keywords in golden paths: " ((ranked (keywordsOf golden)).take 5))
      (opportunities golden) := by
  obtain ⟨areas, hareas, -⟩ := gives_opportunities golden
  refine ⟨areas, hareas, ?_⟩
  obtain ⟨wellTested, -, h⟩ := bind_eq_ok.1 hareas
  have hcount : linesWith "Business keywords in golden paths: " (countAdvice "" wellTested
      " well-tested golden path(s) can serve as reference implementations") = [] := by
    unfold countAdvice
    split
    · rfl
    · refine linesWith_eq_nil fun line hline => ?_
      rw [List.mem_singleton.1 hline, String.empty_append]
      exact isPrefixOf_number_eq_false (c := 'B') rfl rfl wellTested _
  have hterms : linesWith "Business keywords in golden paths: "
      (labelled "Business operations covered by golden paths: "
        (Order.sortedSet (golden.flatMap fun p => Signal.businessTerms p.path))) = [] :=
    linesWith_labelled_other (fun _ => rfl) _
  cases h
  change linesWith _ (labelled _ (topKeywords golden) ++ _ ++ labelled _ _) = _
  rw [linesWith_append, linesWith_append, hcount, hterms, linesWith_labelled, topKeywords_eq,
    List.append_nil, List.append_nil]

end Sections

/-! ## Tables -/

/-- What a report shows of the risk factors of all paths and of the keywords of golden ones, as the
    beginnings of two rankings. -/
structure Tabled (golden risk neutral : List (Analyzed Json)) (factors keywords : List String) :
    Prop where
  factors_lead : Order.Leads (factorsOf (golden ++ risk ++ neutral)).count
    (factorsOf (golden ++ risk ++ neutral)).toFinset 10 factors
  summary : riskFactorSummary (golden ++ risk ++ neutral) = factors.map fun f =>
    s!"{f} ({(factorsOf (golden ++ risk ++ neutral)).count f} occurrences)"
  dominant : ∀ lines, findings golden risk neutral = .ok lines →
    linesWith "Dominant risk factors: " lines =
      labelled "Dominant risk factors: " (factors.take 3)
  keywords_lead : Order.Leads (keywordsOf golden).count (keywordsOf golden).toFinset 5 keywords
  mentioned : ∃ areas, opportunities golden = .ok areas ∧
    linesWith "Business keywords in golden paths: " areas =
      labelled "Business keywords in golden paths: " keywords

/-- A report shows the beginnings of the rankings by frequency. -/
theorem tabled (golden risk neutral : List (Analyzed Json)) :
    Tabled golden risk neutral ((ranked (factorsOf (golden ++ risk ++ neutral))).take 10)
      ((ranked (keywordsOf golden)).take 5) where
  factors_lead := leads_ranked _ 10
  summary := riskFactorSummary_eq _
  dominant lines h := by
    rw [linesWith_findings h, List.take_take]
    rfl
  keywords_lead := leads_ranked _ 5
  mentioned := gives_keywords golden

/-- **Frequency tables are exact.** There is one list of at most ten risk factors and one of at most
    five keywords that every report over the same paths shows, in whatever order they come. They are
    the most frequent ones, with the numbers of their occurrences, and nothing that is left out is
    ahead of what is listed. The findings are there to name the first three factors whenever scores
    are numbers. -/
theorem tables_exact (golden risk neutral : List (Analyzed Json)) :
    (∃ factors keywords, ∀ golden' risk' neutral', golden'.Perm golden →
      (golden' ++ risk' ++ neutral').Perm (golden ++ risk ++ neutral) →
        Tabled golden' risk' neutral' factors keywords) ∧
    ((∀ p ∈ golden ++ risk ++ neutral, p.IsMachine) →
      (golden ++ risk ++ neutral).length < Number.machineBound →
        ∃ lines, findings golden risk neutral = .ok lines) := by
  constructor
  · refine ⟨(ranked (factorsOf (golden ++ risk ++ neutral))).take 10,
      (ranked (keywordsOf golden)).take 5, fun golden' risk' neutral' hgolden hall => ?_⟩
    have hfactors : ranked (factorsOf (golden' ++ risk' ++ neutral')) =
        ranked (factorsOf (golden ++ risk ++ neutral)) :=
      ranked_eq_of_perm (hall.flatMap_right _)
    have hkeywords : ranked (keywordsOf golden') = ranked (keywordsOf golden) :=
      ranked_eq_of_perm (hgolden.flatMap_right _)
    rw [← hfactors, ← hkeywords]
    exact tabled golden' risk' neutral'
  · intro hmachine hlength
    obtain ⟨lines, hlines, -⟩ := gives_findings hmachine hlength
    exact ⟨lines, hlines⟩

/-- A path with some risk factors and keywords. -/
def marked (factors keywords : List String) : Analyzed Json where
  path := Batch.single "p" 3
  intent := { Batch.evenIntent 0.5 with keywords }
  risk := { Batch.evenRisk 0.5 with details := { factors } }
  confidence := .ofFloat 0.5

theorem marked_isMachine (factors keywords : List String) :
    (marked factors keywords).IsMachine where
  intent := ⟨⟨_, rfl⟩, ⟨_, rfl⟩, ⟨_, rfl⟩, ⟨_, rfl⟩, ⟨_, rfl⟩⟩
  risk := ⟨⟨_, rfl⟩, ⟨_, rfl⟩, ⟨_, rfl⟩, ⟨_, rfl⟩, ⟨_, rfl⟩⟩
  confidence := ⟨_, rfl⟩

/-- Two golden paths in either order, with a path of another kind. -/
theorem tables_exact_twoGolden :
    let p := marked ["slow", "loop"] ["pay", "order"]
    let q := marked ["loop", "flaky"] ["order", "cart"]
    let r := marked ["loop", "slow", "big"] ["user"]
    (∃ factors keywords, Tabled [p, q] [r] [] factors keywords ∧
      Tabled [q, p] [r] [] factors keywords ∧ factors.length = 4 ∧ keywords.length = 3) ∧
    (∃ lines, findings [p, q] [r] [] = .ok lines) ∧
    riskFactorSummary [p, q, r] =
      ["loop (3 occurrences)", "slow (2 occurrences)", "big (1 occurrences)",
       "flaky (1 occurrences)"] := by
  intro p q r
  obtain ⟨⟨factors, keywords, h⟩, hfindings⟩ := tables_exact [p, q] [r] []
  have hsame := h [p, q] [r] [] (.refl _) (.refl _)
  have hswapped := h [q, p] [r] [] (.swap p q []) (.swap p q [r])
  refine ⟨⟨factors, keywords, hsame, hswapped, ?_, ?_⟩, hfindings ?_ ?_, ?_⟩
  · rw [hsame.factors_lead.length]
    decide
  · rw [hsame.keywords_lead.length]
    decide
  · intro x hx
    fin_cases hx <;> exact marked_isMachine _ _
  · exact Number.lt_machineBound (by decide)
  · have hfactors : factorCounts [p, q, r] =
        frequencies ["slow", "loop", "loop", "flaky", "loop", "slow", "big"] := rfl
    rw [riskFactorSummary, hfactors]
    cbv

end PathTriage.Report
