import GgsqlDuckdb.Parser.Rules
import Mathlib.Tactic.IntervalCases

/-!
# The SQL of the dialect

`rust/src/dialect.rs`: the texts that the engine asks the reader for and sends back through the
bridge.  `naming::quote_ident` and the default aggregates are the engine's; of the first it is
used that it returns one quoted identifier.

What reaches the inner connection is read by DuckDB's lexer, and by the scanner of the extension
when DuckDB rejects it.  Names, column aliases and reference systems come from the data and from
the query; none of them may change how such a text is read.

## Main results

- `Generated.spliced`: a generated text is read as its fragments are, in any lexer of SQL.
- `generated_marks`: neither lexer finds a keyword or a `;` that is not in a fragment.
- `transform_reads_back`: reference systems come back as they were, whatever they contain.
-/

namespace GgsqlDuckdb

open Library

namespace Dialect

/-! ## §1 The dialect -/

/-- `s.replace(quote, quote quote)` -/
def doubled (quote : UInt8) (s : Bytes) : Bytes :=
  s.flatMap fun c => if c = quote then [quote, quote] else [c]

/-- A number in a `format!`. -/
def decimal (n : ℕ) : Bytes := ascii n.repr

/-- `exprs.join(", ")` in the parentheses of a function; a single expression stands alone. -/
def sqlExtreme (front : Bytes) (exprs : List Bytes) : Bytes :=
  match exprs with
  | [e] => e
  | _ => front ++ List.intercalate (ascii ", ") exprs ++ ascii ")"

/-- `sql_greatest` -/
def sqlGreatest : List Bytes → Bytes := sqlExtreme (ascii "GREATEST(")

/-- `sql_least` -/
def sqlLeast : List Bytes → Bytes := sqlExtreme (ascii "LEAST(")

/-- The literal of a reference system. -/
def crsLiteral (crs : Bytes) : Bytes := enclosed .single (doubled apostrophe crs)

/-- `sql_st_transform` -/
def sqlStTransform (column sourceCrs targetCrs : Bytes) : Bytes :=
  ascii "ST_Transform(" ++ column ++ ascii ", " ++ crsLiteral sourceCrs ++ ascii ", " ++
    crsLiteral targetCrs ++ ascii ", always_xy := true)"

/-- `sql_ensure_geometry` -/
def sqlEnsureGeometry (column : Bytes) : Bytes :=
  ascii "ST_GeomFromWKB(CAST(" ++ column ++ ascii " AS BLOB))"

/-- `sql_select_replace` -/
def sqlSelectReplace (expr col source : Bytes) (_allColumns : List Bytes) : Bytes :=
  ascii "SELECT * REPLACE (" ++ expr ++ ascii " AS " ++ col ++ ascii ") FROM (" ++ source ++
    ascii ")"

/-- `sql_geometry_to_wkb` -/
def sqlGeometryToWkb (column : Bytes) : Bytes := ascii "ST_AsWKB(" ++ column ++ ascii ")"

/-- `sql_geometry_bbox` -/
def sqlGeometryBbox (column source : Bytes) : Bytes :=
  ascii ("SELECT ST_XMin(ext) AS xmin, ST_YMin(ext) AS ymin, " ++
      "ST_XMax(ext) AS xmax, ST_YMax(ext) AS ymax FROM (SELECT ST_Extent_Agg(") ++
    column ++ ascii ") AS ext FROM " ++ source ++ ascii ")"

/-- `sql_spatial_setup` -/
def sqlSpatialSetup : List Bytes := [ascii "LOAD spatial"]

/-- `sql_generate_series`; the release build of the extension does not check `n - 1`. -/
def sqlGenerateSeries (n : UInt64) : Bytes :=
  enclosed .double (ascii "__ggsql_seq__") ++
    ascii "(n) AS (SELECT generate_series FROM GENERATE_SERIES(0, " ++ decimal (n - 1).toNat ++
    ascii "))"

section Names

-- `naming::quote_ident`
variable (quoteIdent : Bytes → Bytes)

/-- `wrap_with_column_aliases` -/
def wrapWithColumnAliases (bodySql : Bytes) (columnAliases : List Bytes) : Bytes :=
  match columnAliases with
  | [] => bodySql
  | _ =>
    ascii "WITH __ggsql_aliased__(" ++
      List.intercalate (ascii ", ") (columnAliases.map quoteIdent) ++ ascii ") AS (" ++ bodySql ++
      ascii ") SELECT * FROM __ggsql_aliased__"

/-- `create_or_replace_temp_table_sql` -/
def createOrReplaceTempTableSql (name : Bytes) (columnAliases : List Bytes) (bodySql : Bytes) :
    List Bytes :=
  [ascii "CREATE OR REPLACE TEMP TABLE " ++ quoteIdent name ++ ascii " AS " ++
    wrapWithColumnAliases quoteIdent bodySql columnAliases]

/-- `sql_quantile_inline`, with the text of the fraction. -/
def sqlQuantileInline (column fraction : Bytes) : Option Bytes :=
  some (ascii "QUANTILE_CONT(" ++ quoteIdent column ++ ascii ", " ++ fraction ++ ascii ")")

/-- The clause of a group in `sql_percentile`. -/
def groupClause (g : Bytes) : Bytes :=
  ascii "AND " ++ quoteIdent (ascii "__ggsql_pct__") ++ ascii "." ++ quoteIdent g ++
    ascii " IS NOT DISTINCT FROM " ++ quoteIdent (ascii "__ggsql_qt__") ++ ascii "." ++
    quoteIdent g

/-- `sql_percentile`, with the text of the fraction. -/
def sqlPercentile (column fraction source : Bytes) (groups : List Bytes) : Bytes :=
  ascii "(SELECT QUANTILE_CONT(" ++ quoteIdent column ++ ascii ", " ++ fraction ++
    ascii ") FROM (" ++ source ++ ascii ") AS " ++ enclosed .double (ascii "__ggsql_pct__") ++
    ascii " WHERE " ++ quoteIdent column ++ ascii " IS NOT NULL " ++
    List.intercalate (ascii " ") (groups.map (groupClause quoteIdent)) ++ ascii ")"

end Names

/-- `sql_aggregate`; the other aggregates are the engine's. -/
def sqlAggregate (defaultSqlAggregate : Bytes → Bytes → Option Bytes) (name qcol : Bytes) :
    Option Bytes :=
  if name = ascii "first" then some (ascii "FIRST(" ++ qcol ++ ascii ")")
  else if name = ascii "last" then some (ascii "LAST(" ++ qcol ++ ascii ")")
  else if name = ascii "diff" then
    some (ascii "(LAST(" ++ qcol ++ ascii ") - FIRST(" ++ qcol ++ ascii "))")
  else defaultSqlAggregate name qcol

/-! ## §2 Generated texts -/

/-- `Generated quoteIdent used text`: the dialect makes `text` of the fragments `used`, in this
order, and of names and reference systems that it quotes.  What it makes may be used again. -/
inductive Generated (quoteIdent : Bytes → Bytes) : List Bytes → Bytes → Prop where
  | fragment (s : Bytes) : Generated quoteIdent [s] s
  | greatest (args : List (List Bytes × Bytes)) (h : ∀ x ∈ args, Generated quoteIdent x.1 x.2) :
      Generated quoteIdent (args.flatMap Prod.fst) (sqlGreatest (args.map Prod.snd))
  | least (args : List (List Bytes × Bytes)) (h : ∀ x ∈ args, Generated quoteIdent x.1 x.2) :
      Generated quoteIdent (args.flatMap Prod.fst) (sqlLeast (args.map Prod.snd))
  | stTransform {u : List Bytes} {column : Bytes} (sourceCrs targetCrs : Bytes)
      (h : Generated quoteIdent u column) :
      Generated quoteIdent u (sqlStTransform column sourceCrs targetCrs)
  | ensureGeometry {u : List Bytes} {column : Bytes} (h : Generated quoteIdent u column) :
      Generated quoteIdent u (sqlEnsureGeometry column)
  | selectReplace {u v w : List Bytes} {expr col source : Bytes} (allColumns : List Bytes)
      (hexpr : Generated quoteIdent u expr) (hcol : Generated quoteIdent v col)
      (hsource : Generated quoteIdent w source) :
      Generated quoteIdent (u ++ v ++ w) (sqlSelectReplace expr col source allColumns)
  | geometryToWkb {u : List Bytes} {column : Bytes} (h : Generated quoteIdent u column) :
      Generated quoteIdent u (sqlGeometryToWkb column)
  | geometryBbox {u v : List Bytes} {column source : Bytes}
      (hcolumn : Generated quoteIdent u column) (hsource : Generated quoteIdent v source) :
      Generated quoteIdent (u ++ v) (sqlGeometryBbox column source)
  | spatialSetup {text : Bytes} (htext : text ∈ sqlSpatialSetup) : Generated quoteIdent [] text
  | tempTable {u : List Bytes} {body text : Bytes} (name : Bytes) (aliases : List Bytes)
      (hbody : Generated quoteIdent u body)
      (htext : text ∈ createOrReplaceTempTableSql quoteIdent name aliases body) :
      Generated quoteIdent u text
  | generateSeries (n : UInt64) : Generated quoteIdent [] (sqlGenerateSeries n)
  | quantileInline {u : List Bytes} {fraction text : Bytes} (column : Bytes)
      (hfraction : Generated quoteIdent u fraction)
      (htext : sqlQuantileInline quoteIdent column fraction = some text) :
      Generated quoteIdent u text
  | aggregate {u : List Bytes} {qcol text : Bytes}
      {defaultSqlAggregate : Bytes → Bytes → Option Bytes} (name : Bytes)
      (hname : name = ascii "first" ∨ name = ascii "last") (hqcol : Generated quoteIdent u qcol)
      (htext : sqlAggregate defaultSqlAggregate name qcol = some text) :
      Generated quoteIdent u text
  | difference {u : List Bytes} {qcol text : Bytes}
      {defaultSqlAggregate : Bytes → Bytes → Option Bytes} (hqcol : Generated quoteIdent u qcol)
      (htext : sqlAggregate defaultSqlAggregate (ascii "diff") qcol = some text) :
      Generated quoteIdent (u ++ u) text
  | percentile {u v : List Bytes} {fraction source : Bytes} (column : Bytes) (groups : List Bytes)
      (hfraction : Generated quoteIdent u fraction) (hsource : Generated quoteIdent v source) :
      Generated quoteIdent (u ++ v) (sqlPercentile quoteIdent column fraction source groups)

/-- `naming::quote_ident` returns one quoted identifier. -/
def QuotesNames (quoteIdent : Bytes → Bytes) : Prop :=
  ∀ name, ∃ s, QuotedContent doubleQuote s ∧ quoteIdent name = enclosed .double s

/-! ## §3 What the dialect quotes -/

variable {κ : Type} [DecidableEq κ] {R : SqlRules κ}

theorem doubled_content (quote : UInt8) (s : Bytes) : QuotedContent quote (doubled quote s) := by
  induction s with
  | nil => exact .nil
  | cons c s ih =>
    unfold doubled
    rw [List.flatMap_cons]
    split_ifs with hc
    · exact .doubled ih
    · exact .plain hc ih

theorem crsLiteral_spliced (crs : Bytes) : R.Spliced [] (crsLiteral crs) :=
  SqlRules.quoted_spliced .single (doubled_content apostrophe crs)

theorem isDigit_toUInt8 {d : Char} (hdigit : d.isDigit = true) : isDigit d.toUInt8 = true := by
  simp only [Char.isDigit, Bool.and_eq_true, decide_eq_true_eq] at hdigit
  have hlow : 48 ≤ d.toNat := UInt32.le_iff_toNat_le.mp hdigit.1
  have hhigh : d.toNat ≤ 57 := UInt32.le_iff_toNat_le.mp hdigit.2
  have hbyte : d.toUInt8 = UInt8.ofNat d.toNat := rfl
  rw [hbyte]
  generalize d.toNat = k at hlow hhigh
  interval_cases k <;> decide

theorem decimal_spliced (n : ℕ) : R.Spliced [] (decimal n) := by
  have hlist : (Nat.repr n).toList = Nat.toDigits 10 n := Nat.toList_repr
  refine SqlRules.digits_spliced ?_ ?_
  · rw [decimal, ascii, hlist]
    simp
  · intro c hc
    obtain ⟨d, hd, rfl⟩ := List.mem_map.mp hc
    rw [hlist] at hd
    exact isDigit_toUInt8 (Nat.isDigit_of_mem_toDigits (by decide) (by decide) hd)

/-! ## §4 One function at a time -/

variable {quoteIdent : Bytes → Bytes}

theorem QuotesNames.spliced (hquotes : QuotesNames quoteIdent) (name : Bytes) :
    R.Spliced [] (quoteIdent name) := by
  obtain ⟨s, hs, hname⟩ := hquotes name
  rw [hname]
  exact SqlRules.quoted_spliced .double hs

/-- Pieces without marks, with a separator. -/
theorem intercalate_spliced {sep : Bytes} (hback : SqlRules.isBack sep = true)
    (hfront : SqlRules.isFront sep = true) {texts : List Bytes}
    (htexts : ∀ t ∈ texts, R.Spliced [] t) : R.Spliced [] (List.intercalate sep texts) := by
  have hall := SqlRules.intercalate _ (R := R) hback hfront (texts.map fun t => ([], t)) (by
    intro x hx
    obtain ⟨t, ht, rfl⟩ := List.mem_map.mp hx
    exact htexts t ht)
  rw [List.map_map, List.flatMap_map] at hall
  have hmarks : (texts.flatMap fun _ => ([] : List (κ × Bytes))) = [] := by simp
  have htext : texts.map (Prod.snd ∘ fun t => (([] : List (κ × Bytes)), t)) = texts :=
    List.map_id texts
  rwa [hmarks, htext] at hall

theorem sqlExtreme_spliced {front : Bytes} (hfront : SqlRules.isFront front = true)
    (parts : List (List (κ × Bytes) × Bytes)) (hparts : ∀ x ∈ parts, R.Spliced x.1 x.2) :
    R.Spliced (parts.flatMap Prod.fst) (sqlExtreme front (parts.map Prod.snd)) := by
  have hjoined := SqlRules.intercalate (ascii ", ") (R := R) (by decide) (by decide) parts
    hparts
  have hlist : R.Spliced (parts.flatMap Prod.fst)
      (front ++ List.intercalate (ascii ", ") (parts.map Prod.snd) ++ ascii ")") :=
    SqlRules.before _ (SqlRules.behind _ hjoined hfront) (by decide)
  match parts, hlist with
  | [], hlist => exact hlist
  | [x], _ =>
    -- a single expression stands alone
    rw [List.flatMap_cons, List.flatMap_nil, List.append_nil]
    exact hparts x List.mem_cons_self
  | _ :: _ :: _, hlist => exact hlist

section Pieces

variable {m n o : List (κ × Bytes)} {expr col column source fraction qcol body : Bytes}

theorem sqlStTransform_spliced (h : R.Spliced m column) (sourceCrs targetCrs : Bytes) :
    R.Spliced m (sqlStTransform column sourceCrs targetCrs) := by
  have hcolumn := SqlRules.behind (ascii "ST_Transform(") h (by decide)
  have hsource := SqlRules.between (ascii ", ") hcolumn (by decide) (by decide)
    (crsLiteral_spliced sourceCrs)
  have htarget := SqlRules.between (ascii ", ") hsource (by decide) (by decide)
    (crsLiteral_spliced targetCrs)
  rw [List.append_nil, List.append_nil] at htarget
  exact SqlRules.before _ htarget (by decide)

theorem sqlEnsureGeometry_spliced (h : R.Spliced m column) :
    R.Spliced m (sqlEnsureGeometry column) :=
  SqlRules.before _ (SqlRules.behind _ h (by decide)) (by decide)

theorem sqlGeometryToWkb_spliced (h : R.Spliced m column) :
    R.Spliced m (sqlGeometryToWkb column) :=
  SqlRules.before _ (SqlRules.behind _ h (by decide)) (by decide)

theorem sqlSelectReplace_spliced (hexpr : R.Spliced m expr) (hcol : R.Spliced n col)
    (hsource : R.Spliced o source) (allColumns : List Bytes) :
    R.Spliced (m ++ n ++ o) (sqlSelectReplace expr col source allColumns) := by
  have hfront := SqlRules.behind (ascii "SELECT * REPLACE (") hexpr (by decide)
  have halias := SqlRules.between (ascii " AS ") hfront (by decide) (by decide) hcol
  have hfrom := SqlRules.between (ascii ") FROM (") halias (by decide) (by decide) hsource
  exact SqlRules.before _ hfrom (by decide)

theorem sqlGeometryBbox_spliced (hcolumn : R.Spliced m column) (hsource : R.Spliced n source) :
    R.Spliced (m ++ n) (sqlGeometryBbox column source) := by
  have hfront := SqlRules.behind (ascii
    ("SELECT ST_XMin(ext) AS xmin, ST_YMin(ext) AS ymin, " ++
      "ST_XMax(ext) AS xmax, ST_YMax(ext) AS ymax FROM (SELECT ST_Extent_Agg(")) hcolumn
    (by decide +kernel)
  have hfrom := SqlRules.between (ascii ") AS ext FROM ") hfront (by decide) (by decide)
    hsource
  exact SqlRules.before _ hfrom (by decide)

theorem sqlGenerateSeries_spliced (n : UInt64) : R.Spliced [] (sqlGenerateSeries n) := by
  have hname : R.Spliced [] (enclosed .double (ascii "__ggsql_seq__")) :=
    SqlRules.quoted_spliced .double (doubled_content doubleQuote (ascii "__ggsql_seq__"))
  -- the series starts at a number as well
  have hzero : R.Spliced [] (ascii "0") :=
    SqlRules.digits_spliced (by decide) (List.all_eq_true.mp (by decide))
  have hfrom := SqlRules.between (ascii "(n) AS (SELECT generate_series FROM GENERATE_SERIES(")
    hname (by decide) (by decide) hzero
  have hseries := SqlRules.between (ascii ", ") hfrom (by decide) (by decide)
    (decimal_spliced (n - 1).toNat)
  have htext := SqlRules.before (ascii "))") hseries (by decide)
  have hcode : ascii "(n) AS (SELECT generate_series FROM GENERATE_SERIES(0, " =
      ascii "(n) AS (SELECT generate_series FROM GENERATE_SERIES(" ++ ascii "0" ++ ascii ", " := by
    decide
  unfold sqlGenerateSeries
  rw [hcode]
  simpa only [List.append_assoc, List.nil_append] using htext

theorem wrapWithColumnAliases_spliced (hquotes : QuotesNames quoteIdent) (hbody : R.Spliced m body)
    (aliases : List Bytes) : R.Spliced m (wrapWithColumnAliases quoteIdent body aliases) := by
  have hcols : R.Spliced [] (List.intercalate (ascii ", ") (aliases.map quoteIdent)) := by
    apply intercalate_spliced (by decide) (by decide)
    intro t ht
    obtain ⟨name, -, rfl⟩ := List.mem_map.mp ht
    exact hquotes.spliced name
  have hfront := SqlRules.behind (ascii "WITH __ggsql_aliased__(") hcols (by decide)
  have hinner := SqlRules.between (ascii ") AS (") hfront (by decide) (by decide) hbody
  have hwrapped := SqlRules.before (ascii ") SELECT * FROM __ggsql_aliased__") hinner
    (by decide)
  cases aliases with
  | nil => exact hbody
  | cons a aliases => exact hwrapped

theorem tempTable_spliced (hquotes : QuotesNames quoteIdent) (hbody : R.Spliced m body)
    (name : Bytes) (aliases : List Bytes) {text : Bytes}
    (htext : text ∈ createOrReplaceTempTableSql quoteIdent name aliases body) :
    R.Spliced m text := by
  obtain rfl := List.mem_singleton.mp htext
  have hname := SqlRules.behind (ascii "CREATE OR REPLACE TEMP TABLE ")
    (hquotes.spliced (R := R) name) (by decide)
  exact SqlRules.between _ hname (by decide) (by decide)
    (wrapWithColumnAliases_spliced hquotes hbody aliases)

theorem sqlQuantileInline_spliced (hquotes : QuotesNames quoteIdent)
    (hfraction : R.Spliced m fraction) (column : Bytes) {text : Bytes}
    (htext : sqlQuantileInline quoteIdent column fraction = some text) : R.Spliced m text := by
  obtain rfl := Option.some.inj htext
  have hcolumn := SqlRules.behind (ascii "QUANTILE_CONT(") (hquotes.spliced (R := R) column)
    (by decide)
  have hboth := SqlRules.between (ascii ", ") hcolumn (by decide) (by decide) hfraction
  exact SqlRules.before _ hboth (by decide)

theorem firstOrLast_spliced {defaultSqlAggregate : Bytes → Bytes → Option Bytes} {name : Bytes}
    (hname : name = ascii "first" ∨ name = ascii "last") (hqcol : R.Spliced m qcol) {text : Bytes}
    (htext : sqlAggregate defaultSqlAggregate name qcol = some text) : R.Spliced m text := by
  rcases hname with rfl | rfl
  · obtain rfl := Option.some.inj htext
    exact SqlRules.before _ (SqlRules.behind _ hqcol (by decide)) (by decide)
  · obtain rfl := Option.some.inj htext
    exact SqlRules.before _ (SqlRules.behind _ hqcol (by decide)) (by decide)

theorem difference_spliced {defaultSqlAggregate : Bytes → Bytes → Option Bytes}
    (hqcol : R.Spliced m qcol) {text : Bytes}
    (htext : sqlAggregate defaultSqlAggregate (ascii "diff") qcol = some text) :
    R.Spliced (m ++ m) text := by
  obtain rfl := Option.some.inj htext
  have hlast := SqlRules.behind (ascii "(LAST(") hqcol (by decide)
  -- the minus is no joint, since another one behind it makes a comment
  have hminus := SqlRules.between (ascii ") ") hlast (by decide) (by decide)
    SqlRules.dash_spliced
  have hfirst := SqlRules.between (ascii " FIRST(") hminus (by decide) (by decide) hqcol
  rw [List.append_nil] at hfirst
  have hall := SqlRules.before (ascii "))") hfirst (by decide)
  have hsplit : ascii ") - FIRST(" = ascii ") " ++ [dash] ++ ascii " FIRST(" := by decide
  rw [hsplit]
  simpa only [List.append_assoc] using hall

theorem groupClause_spliced (hquotes : QuotesNames quoteIdent) (g : Bytes) :
    R.Spliced [] (groupClause quoteIdent g) := by
  have hpct := SqlRules.behind (ascii "AND ") (hquotes.spliced (R := R) (ascii "__ggsql_pct__"))
    (by decide)
  have hleft := SqlRules.between (ascii ".") hpct (by decide) (by decide)
    (hquotes.spliced g)
  have hqt := SqlRules.between (ascii " IS NOT DISTINCT FROM ") hleft (by decide)
    (by decide) (hquotes.spliced (ascii "__ggsql_qt__"))
  exact SqlRules.between _ hqt (by decide) (by decide) (hquotes.spliced g)

theorem sqlPercentile_spliced (hquotes : QuotesNames quoteIdent) (hfraction : R.Spliced m fraction)
    (hsource : R.Spliced n source) (column : Bytes) (groups : List Bytes) :
    R.Spliced (m ++ n) (sqlPercentile quoteIdent column fraction source groups) := by
  have hpct : R.Spliced [] (enclosed .double (ascii "__ggsql_pct__")) :=
    SqlRules.quoted_spliced .double (doubled_content doubleQuote (ascii "__ggsql_pct__"))
  have hfilter : R.Spliced []
      (List.intercalate (ascii " ") (groups.map (groupClause quoteIdent))) := by
    apply intercalate_spliced (by decide) (by decide)
    intro t ht
    obtain ⟨g, -, rfl⟩ := List.mem_map.mp ht
    exact groupClause_spliced hquotes g
  have hfront := SqlRules.behind (ascii "(SELECT QUANTILE_CONT(")
    (hquotes.spliced (R := R) column) (by decide)
  have hcall := SqlRules.between (ascii ", ") hfront (by decide) (by decide) hfraction
  have hfrom := SqlRules.between (ascii ") FROM (") hcall (by decide) (by decide) hsource
  have halias := SqlRules.between (ascii ") AS ") hfrom (by decide) (by decide) hpct
  have hwhere := SqlRules.between (ascii " WHERE ") halias (by decide) (by decide)
    (hquotes.spliced column)
  have hgroups := SqlRules.between (ascii " IS NOT NULL ") hwhere (by decide) (by decide)
    hfilter
  rw [List.append_nil, List.append_nil, List.append_nil] at hgroups
  exact SqlRules.before _ hgroups (by decide)

end Pieces

/-! ## §5 Texts of any nesting -/

/-- The arguments of a function, with the marks of their fragments. -/
theorem flatMap_marks (args : List (List Bytes × Bytes)) :
    ((args.map fun x => (x.1.flatMap R.marks, x.2)).flatMap Prod.fst) =
      (args.flatMap Prod.fst).flatMap R.marks := by
  induction args with
  | nil => rfl
  | cons x args ih => rw [List.map_cons, List.flatMap_cons, ih, List.flatMap_cons,
      List.flatMap_append]

theorem extreme_fragments {front : Bytes} (hfront : SqlRules.isFront front = true)
    (args : List (List Bytes × Bytes))
    (hargs : ∀ x ∈ args, R.Spliced (x.1.flatMap R.marks) x.2) :
    R.Spliced ((args.flatMap Prod.fst).flatMap R.marks)
      (sqlExtreme front (args.map Prod.snd)) := by
  have hall := sqlExtreme_spliced hfront (args.map fun x => (x.1.flatMap R.marks, x.2)) (by
    intro y hy
    obtain ⟨x, hx, rfl⟩ := List.mem_map.mp hy
    exact hargs x hx)
  rw [flatMap_marks, List.map_map] at hall
  exact hall

/-- **A generated text is read as its fragments are**, by induction over how it was made. -/
theorem Generated.spliced (hquotes : QuotesNames quoteIdent) {used : List Bytes} {text : Bytes}
    (h : Generated quoteIdent used text) (hused : ∀ s ∈ used, R.Sealed s) :
    R.Spliced (used.flatMap R.marks) text := by
  induction h with
  | fragment s =>
    have hs : R.Sealed s := hused s List.mem_cons_self
    rw [List.flatMap_cons, List.flatMap_nil, List.append_nil]
    exact hs.spliced
  | greatest args _ ih =>
    apply extreme_fragments (by decide)
    exact fun x hx => ih x hx fun s hs => hused s (List.mem_flatMap.mpr ⟨x, hx, hs⟩)
  | least args _ ih =>
    apply extreme_fragments (by decide)
    exact fun x hx => ih x hx fun s hs => hused s (List.mem_flatMap.mpr ⟨x, hx, hs⟩)
  | stTransform sourceCrs targetCrs _ ih => exact sqlStTransform_spliced (ih hused) _ _
  | ensureGeometry _ ih => exact sqlEnsureGeometry_spliced (ih hused)
  | selectReplace allColumns _ _ _ ihexpr ihcol ihsource =>
    rw [List.flatMap_append, List.flatMap_append]
    apply sqlSelectReplace_spliced
    · exact ihexpr fun s hs => hused s (by simp [hs])
    · exact ihcol fun s hs => hused s (by simp [hs])
    · exact ihsource fun s hs => hused s (by simp [hs])
  | geometryToWkb _ ih => exact sqlGeometryToWkb_spliced (ih hused)
  | geometryBbox _ _ ihcolumn ihsource =>
    rw [List.flatMap_append]
    apply sqlGeometryBbox_spliced
    · exact ihcolumn fun s hs => hused s (List.mem_append_left _ hs)
    · exact ihsource fun s hs => hused s (List.mem_append_right _ hs)
  | spatialSetup htext =>
    obtain rfl := List.mem_singleton.mp htext
    exact SqlRules.plain_spliced (by decide)
  | tempTable name aliases _ htext ih =>
    exact tempTable_spliced hquotes (ih hused) name aliases htext
  | generateSeries n => exact sqlGenerateSeries_spliced n
  | quantileInline column _ htext ih =>
    exact sqlQuantileInline_spliced hquotes (ih hused) column htext
  | aggregate name hname _ htext ih => exact firstOrLast_spliced hname (ih hused) htext
  | difference _ htext ih =>
    rw [List.flatMap_append]
    exact difference_spliced (ih fun s hs => hused s (List.mem_append_left _ hs)) htext
  | percentile column groups _ _ ihfraction ihsource =>
    rw [List.flatMap_append]
    apply sqlPercentile_spliced hquotes
    · exact ihfraction fun s hs => hused s (List.mem_append_left _ hs)
    · exact ihsource fun s hs => hused s (List.mem_append_right _ hs)

/-! ## §6 Both lexers -/

/-- The keywords are among the marks. -/
theorem hasKeyword_eq_marks (q : Bytes) :
    hasKeyword q = (scannerRules.marks q).any isKeywordSegment := by
  unfold hasKeyword SqlRules.marks
  rw [List.any_filter]
  congr 1
  funext t
  cases hkeyword : isKeywordSegment t with
  | false => rw [Bool.and_false]
  | true =>
    have hmark : scannerRules.isMark t = true := by
      unfold SqlRules.isMark
      rw [show (decide (t.1 = scannerRules.word) && isKeyword t.2) = true from hkeyword,
        Bool.true_or]
    rw [hmark]
    rfl

theorem hasHostKeyword_eq_marks (nests : Bool) (q : Bytes) :
    hasHostKeyword nests q =
      ((hostRules nests).marks q).any fun t => decide (t.1 = .word) && isKeyword t.2 := by
  unfold hasHostKeyword SqlRules.marks
  rw [List.any_filter]
  congr 1
  funext t
  cases hkeyword : (decide (t.1 = HostKind.word) && isKeyword t.2) with
  | false => rw [Bool.and_false]
  | true =>
    have hmark : (hostRules nests).isMark t = true := by
      unfold SqlRules.isMark
      rw [show (decide (t.1 = (hostRules nests).word) && isKeyword t.2) = true from hkeyword,
        Bool.true_or]
    rw [hmark]
    rfl

theorem declined_iff (q : Bytes) : parseFunction q = some .declined ↔ hasKeyword q = false := by
  unfold parseFunction
  rw [containsVisualiseKeyword_eq]
  cases hasKeyword q <;> simp

/-- The value of a literal's content: `''` stands for `'`. -/
def undoubled (quote : UInt8) : Bytes → Bytes
  | c :: d :: t =>
    if c = quote ∧ d = quote then c :: undoubled quote t else c :: undoubled quote (d :: t)
  | s => s

/-- The value of a string literal. -/
def literalValue : Bytes → Option Bytes
  | [] => none
  | c :: t =>
    if c = apostrophe ∧ t.getLast? = some apostrophe then some (undoubled apostrophe t.dropLast)
    else none

theorem undoubled_doubled (quote : UInt8) (s : Bytes) : undoubled quote (doubled quote s) = s := by
  induction s with
  | nil => rfl
  | cons c s ih =>
    have hcons : doubled quote (c :: s) =
        (if c = quote then [quote, quote] else [c]) ++ doubled quote s := rfl
    rw [hcons]
    split_ifs with hc
    · show undoubled quote (quote :: quote :: doubled quote s) = c :: s
      rw [undoubled, if_pos ⟨rfl, rfl⟩, ih, hc]
    · show undoubled quote (c :: doubled quote s) = c :: s
      generalize doubled quote s = t at ih
      cases t with
      | nil =>
        rw [← ih]
        rfl
      | cons d t => rw [undoubled, if_neg fun h => hc h.1, ih]

theorem literalValue_crs (crs : Bytes) : literalValue (crsLiteral crs) = some crs := by
  show literalValue (apostrophe :: (doubled apostrophe crs ++ [apostrophe])) = some crs
  rw [literalValue, if_pos ⟨rfl, List.getLast?_concat⟩, List.dropLast_concat, undoubled_doubled]

end Dialect

open Dialect

/-- **Generated SQL is read as its fragments are.**  Whatever the dialect makes, of fragments that
end outside of literals and comments, is again such a text, and the keywords and the `;` in it are
those of the fragments, in their order, for the scanner and for the host.  So the extension declines
it if and only if it declines every fragment, and no name, alias, group or reference system has a
part in that. -/
theorem generated_marks {quoteIdent : Bytes → Bytes} (hquotes : QuotesNames quoteIdent)
    {used : List Bytes} {text : Bytes} (h : Generated quoteIdent used text) :
    ((∀ s ∈ used, Complete s) →
      Complete text ∧ scannerRules.marks text = used.flatMap scannerRules.marks ∧
      (parseFunction text = some .declined ↔ ∀ s ∈ used, parseFunction s = some .declined)) ∧
    ∀ nests, (∀ s ∈ used, (hostRules nests).Sealed s) →
      (hostRules nests).Sealed text ∧
      (hostRules nests).marks text = used.flatMap (hostRules nests).marks ∧
      hasHostKeyword nests text = used.any (hasHostKeyword nests) := by
  constructor
  · intro hused
    have hspliced : scannerRules.Spliced (used.flatMap scannerRules.marks) text :=
      h.spliced hquotes fun s hs => (sealed_iff_complete s).mpr (hused s hs)
    have hmarks : scannerRules.marks text = used.flatMap scannerRules.marks := hspliced.marks_eq
    refine ⟨(sealed_iff_complete text).mp hspliced.isSealed, hmarks, ?_⟩
    simp only [declined_iff, hasKeyword_eq_marks, hmarks, List.any_flatMap, List.any_eq_false]
    simp
  · intro nests hused
    have hspliced : (hostRules nests).Spliced (used.flatMap (hostRules nests).marks) text :=
      h.spliced hquotes hused
    have hmarks : (hostRules nests).marks text = used.flatMap (hostRules nests).marks :=
      hspliced.marks_eq
    refine ⟨hspliced.isSealed, hmarks, ?_⟩
    rw [hasHostKeyword_eq_marks, hmarks, List.any_flatMap]
    congr 1
    funext s
    exact (hasHostKeyword_eq_marks nests s).symm

/-- An engine that doubles the quotes of a name. -/
def quoteDoubled (name : Bytes) : Bytes := enclosed .double (doubled doubleQuote name)

theorem quoteDoubled_quotes : QuotesNames quoteDoubled :=
  fun name => ⟨_, doubled_content doubleQuote name, rfl⟩

/-- The text of a table, with a keyword and a `;` in its name. -/
def tableText : Bytes :=
  ascii "CREATE OR REPLACE TEMP TABLE \"t\"\"; VISUALISE\" AS ST_AsWKB(geom)"

theorem tableText_generated : Generated quoteDoubled [ascii "geom"] tableText := by
  apply Generated.tempTable (ascii "t\"; VISUALISE") [] (.geometryToWkb (.fragment (ascii "geom")))
  exact List.mem_singleton.mpr (by decide +kernel)

theorem generated_marks_table :
    Complete tableText ∧ parseFunction tableText = some .declined ∧
      hasHostKeyword true tableText = false := by
  obtain ⟨hscanner, hhost⟩ := generated_marks quoteDoubled_quotes tableText_generated
  have hplain : SqlRules.isPlain (ascii "geom") = true := by decide
  have hsealed : ∀ s ∈ [ascii "geom"], (hostRules true).Sealed s := by
    intro s hs
    obtain rfl := List.mem_singleton.mp hs
    exact (SqlRules.plain_spliced hplain).isSealed
  have hcomplete : ∀ s ∈ [ascii "geom"], Complete s := by
    intro s hs
    obtain rfl := List.mem_singleton.mp hs
    exact (sealed_iff_complete _).mp (SqlRules.plain_spliced hplain).isSealed
  obtain ⟨htext, -, hdeclined⟩ := hscanner hcomplete
  refine ⟨htext, hdeclined.mpr ?_, ?_⟩
  · intro s hs
    obtain rfl := List.mem_singleton.mp hs
    decide
  · rw [(hhost true hsealed).2.2]
    decide

/-- **Reference systems come back as they were.**  The host reads the two literals of
`ST_Transform` as the source and the target, whatever bytes these contain, and everything else as
it would without them. -/
theorem transform_reads_back (nests : Bool) {column : Bytes}
    (hcolumn : (hostRules nests).Sealed column) (sourceCrs targetCrs : Bytes) :
    ∃ l₁ l₂, literalValue l₁ = some sourceCrs ∧ literalValue l₂ = some targetCrs ∧
      (hostLexer nests).tokens (sqlStTransform column sourceCrs targetCrs) =
        (hostLexer nests).tokens (ascii "ST_Transform(") ++ (hostLexer nests).tokens column ++
          (hostLexer nests).tokens (ascii ", ") ++ [(.stringLiteral, l₁)] ++
          (hostLexer nests).tokens (ascii ", ") ++ [(.stringLiteral, l₂)] ++
          (hostLexer nests).tokens (ascii ", always_xy := true)") := by
  refine ⟨crsLiteral sourceCrs, crsLiteral targetCrs, literalValue_crs _, literalValue_crs _, ?_⟩
  have hopen : (hostLexer nests).Firm (ascii "ST_Transform(") :=
    SqlRules.front_firm (R := hostRules nests) (by decide)
  have hcomma : (hostLexer nests).Firm (ascii ", ") :=
    SqlRules.front_firm (R := hostRules nests) (by decide)
  have hgap : ∀ (front rest : Bytes), SqlRules.isBack front = true →
      ∀ c ∈ (front ++ rest).head?, isGap c = true := by
    intro front rest hback
    rw [List.head?_append_of_ne_nil _ (SqlRules.back_head hback).1]
    exact (SqlRules.back_head hback).2
  -- a literal ends at its last quote in front of a gap
  have hliteral : ∀ crs rest, (∀ c ∈ rest.head?, isGap c = true) →
      (hostLexer nests).tokens (crsLiteral crs ++ rest) =
        (.stringLiteral, crsLiteral crs) :: (hostLexer nests).tokens rest := by
    intro crs rest hrest
    apply (hostLexer nests).tokens_of_next
    exact (hostRules nests).quoted_next .single (doubled_content apostrophe crs) hrest
  have hargument : ∀ rest, (∀ c ∈ rest.head?, isGap c = true) →
      (hostLexer nests).tokens (column ++ rest) =
        (hostLexer nests).tokens column ++ (hostLexer nests).tokens rest :=
    fun rest hrest => Lexer.Sealed.tokens hcolumn hrest
  unfold sqlStTransform
  simp only [List.append_assoc]
  rw [hopen.tokens, hargument _ (hgap _ _ (by decide)), hcomma.tokens,
    hliteral _ _ (hgap _ _ (by decide)), hcomma.tokens,
    hliteral _ _ (SqlRules.back_head (by decide)).2]
  rfl

theorem transform_reads_back_quote :
    ∃ l₁ l₂, literalValue l₁ = some (ascii "EPSG:4326'; DROP TABLE t; --") ∧
      literalValue l₂ = some (ascii "EPSG:3857") ∧
      (hostLexer true).tokens (sqlStTransform (ascii "geom") (ascii "EPSG:4326'; DROP TABLE t; --")
          (ascii "EPSG:3857")) =
        (hostLexer true).tokens (ascii "ST_Transform(") ++ (hostLexer true).tokens (ascii "geom") ++
          (hostLexer true).tokens (ascii ", ") ++ [(.stringLiteral, l₁)] ++
          (hostLexer true).tokens (ascii ", ") ++ [(.stringLiteral, l₂)] ++
          (hostLexer true).tokens (ascii ", always_xy := true)") := by
  have hplain : SqlRules.isPlain (ascii "geom") = true := by decide
  exact transform_reads_back true (SqlRules.plain_spliced hplain).isSealed _ _

end GgsqlDuckdb
