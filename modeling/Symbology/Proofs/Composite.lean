import Symbology.Proofs.Expr.Curves
import Symbology.Proofs.StopFunction.Reading
import Symbology.Proofs.StopFunction.Trees
import Symbology.Proofs.ZoomRule

set_option autoImplicit false

/-! # Functions of both the zoom level and a property

The stops of one zoom level are a function of the property in their own right: the same function
with these stops alone is read and compiled too (`CompilesGroup`). The function of both takes its
outcome from the groups around the zoom level (`FollowsGroups`), and this is all it does
(`composite_follows_groups`). -/

namespace Symbology

variable {spec : PropertySpec} {options : CompileOptions} {compiled : PropertyExpression}

/-! ## Parts of compiled expressions -/

namespace PropertyExpression

/-- What is compiled apart from its tree: the default, and whether it recovers. -/
structure SharesDefault (part whole : PropertyExpression) : Prop where
  default : part.default = whole.default
  recovers : part.recovers = whole.recovers

/-- A part of a compiled expression that does not read the zoom level is compiled on its own. -/
theorem compile_child {json part : Json} (h : compile json spec options = .ok compiled)
    {child : Expr} (hchild : child ∈ compiled.expr.children)
    (hspells : part.Spells spec.type child) (hzoom : child.isZoomConstant = true) :
    ∃ compiled', compile part spec options = .ok compiled' ∧ compiled'.expr = child ∧
      compiled'.SharesDefault compiled := by
  obtain ⟨typed, default, _, hallowed, hdefault, rfl⟩ := compile_eq_ok_iff.mp h
  obtain ⟨typed', hcheck, rfl⟩ := hspells
  have hfeature : typed'.expr.isFeatureConstant = true ∨ spec.featureDependent = true :=
    (allowed_eq_ok_iff.mp hallowed).1.imp_left (Expr.free_child Expr.readsFeature hchild)
  have hallowed' := allowed_eq_ok_iff.mpr ⟨hfeature, Or.inl hzoom⟩
  exact ⟨_, compile_eq_ok_iff.mpr ⟨typed', default, hcheck, hallowed', hdefault, rfl⟩, rfl,
    rfl, rfl⟩

/-- With one default, equal outcomes of the trees give equal outcomes. -/
theorem SharesDefault.evaluate_eq {part whole : PropertyExpression} (h : part.SharesDefault whole)
    {context : Context} (heval : whole.expr.eval context = part.expr.eval context) :
    whole.evaluate context = part.evaluate context := by
  simp only [evaluate, heval, h.default, h.recovers]

end PropertyExpression

namespace StopFunction

variable {members : List (String × Json)} {function : StopFunction}
  {written : List (Json × Json)}

/-! ## Groups as functions -/

/-- The function with other stops. -/
def withStops (members : List (String × Json)) (stops : List (Json × Json)) : Json :=
  .object (Members.insert "stops" (writtenStops stops) members)

/-- The function of the property that holds at one zoom level. -/
structure CompiledGroup where
  zoom : Float
  compiled : PropertyExpression

/-- The group is what the function with the stops of one run is compiled to. -/
structure CompilesGroup (members : List (String × Json)) (spec : PropertySpec)
    (options : CompileOptions) (run : List CompositeStop) (group : CompiledGroup) : Prop where
  zoom : run.head?.map (·.1.toFloat) = some group.zoom
  compiled : ∃ function, read (withStops members (run.map (·.2))) spec = .ok function ∧
    PropertyExpression.compile function.expression spec options = .ok group.compiled

/-- A function of the property has no stops with inputs that are objects. -/
theorem isComposite_of_body {settings : Settings} {stops : List (Json × Json)} {body : Body}
    (hbody : settings.body stops = .ok body) {name : String} {type : ValueType} {expr : Expr}
    (h : (body.expression name).Spells type expr) : isComposite stops = false := by
  cases stops with
  | nil => rfl
  | cons stop rest =>
    obtain ⟨input, output⟩ := stop
    cases input with
    | object input =>
      unfold Settings.body at hbody
      split at hbody
      next =>
        -- the first label of a choice is no object
        obtain rfl := Except.ok.inj hbody
        obtain ⟨_, branches, otherwise, hbranches, _⟩ := spells_match.mp h
        cases hbranches with
        | cons hfirst _ => simp [listedLabels, Typing.labelValue?] at hfirst
      next => simp [numericStops, numericInput, Read.fail, bind, Except.bind, Except.map] at hbody
    | _ => rfl

/-- **With other stops, the function of both is read as a function of the property.** -/
theorem read_composite (hread : read (.object members) spec = .ok function)
    (hstops : members.lookup "stops" = some (writtenStops written))
    (hcomposite : isComposite written = true) :
    (members.lookup "type" = some (.string "identity") ∧
      ∃ name, function = .identity name spec.kind) ∨
    ∃ settings name stops groups', List.Forall₂ IsCompositeStop written stops ∧
      groups settings (runs stops) = .ok groups' ∧
      function = .overBoth name (settings.outerCurve spec) groups' ∧
      ∀ part body, part ≠ [] → isComposite part = false → settings.body part = .ok body →
        read (withStops members part) spec = .ok (.overProperty name body) := by
  obtain ⟨type, name?, htype, _, _, hfunction⟩ := ofMembers_eq_ok_iff.mp hread
  rcases hfunction with ⟨rfl, name, _, rfl⟩ | ⟨hidentity, _⟩
  · exact Or.inl ⟨functionType_eq_identity htype, name, rfl⟩
  right
  obtain ⟨_, base', hname, hbase, _, hblended, hfunction⟩ :=
    (read_eq_ok_iff_of_stops htype hidentity hstops).mp hread
  obtain ⟨name, stops, groups', rfl, hwritten, hgroups, rfl⟩ :=
    (ofStops_eq_ok_iff_of_composite hcomposite).mp hfunction
  refine ⟨_, name, stops, groups', hwritten, hgroups, rfl, fun part body hne hplain hbody => ?_⟩
  -- the function with other stops has all its other members from this one
  have hkept : ∀ key, key ≠ "stops" →
      (Members.insert "stops" (writtenStops part) members).lookup key = members.lookup key :=
    fun key hkey => Members.lookup_insert_of_ne hkey _ _
  have hpart := Members.lookup_insert_self "stops" (writtenStops part) members
  have htypePart := (congrArg (functionType spec) (hkept "type" (by simp))).trans htype
  refine (read_eq_ok_iff_of_stops htypePart hidentity hpart).mpr
    ⟨some name, base', ?_, ?_, hne, hblended, ?_⟩
  · rwa [hkept "property" (by simp)]
  · rwa [hkept "base" (by simp)]
  · rw [hkept "default" (by simp)]
    exact ofStops_eq_ok_iff.mpr (Or.inr (Or.inl ⟨name, body, rfl, hplain, hbody, rfl⟩))

/-! ## The tree of a function of both -/

/-- A curve over the zoom level with a first stop and others, whose labels ascend; the label of the
first stop of a step does not count. -/
inductive CurveOf (first : Float × Expr) (rest : List (Float × Expr)) : Expr → ZoomCurve → Prop
  | step (ascending : (rest.map (·.1)).Pairwise (· < ·)) :
      CurveOf first rest (.step .zoom first.2 rest) ⟨.step, rest.map (·.1)⟩
  | interpolate {interpolation : Interpolation} (notStep : interpolation ≠ .step)
      (ascending : ((first :: rest).map (·.1)).Pairwise (· < ·)) :
      CurveOf first rest (.interpolate interpolation .zoom (first :: rest))
        ⟨interpolation, (first :: rest).map (·.1)⟩

section CurveOf

variable {first : Float × Expr} {rest : List (Float × Expr)} {expr : Expr} {curve : ZoomCurve}

theorem CurveOf.children (h : CurveOf first rest expr curve) :
    ∀ stop ∈ first :: rest, stop.2 ∈ expr.children := by
  intro stop hstop
  cases h with
  | step _ => exact List.mem_cons_of_mem _ (List.mem_map_of_mem hstop)
  | interpolate _ _ => exact List.mem_cons_of_mem _ (List.mem_map_of_mem hstop)

/-- Compiled, it tells its curve. -/
theorem CurveOf.zoomCurve (h : CurveOf first rest expr curve) {json : Json}
    (hcompile : PropertyExpression.compile json spec options = .ok compiled)
    (hexpr : compiled.expr = expr) : compiled.expr.zoomCurve? = some curve := by
  have hreads : compiled.expr.isZoomConstant = false := by
    rw [hexpr]
    cases h <;> rfl
  obtain ⟨found, hfound, _⟩ := PropertyExpression.isZoomCurve_of_compile hcompile hreads
  obtain rfl : found = curve := by
    have hroot := hfound.root
    rw [hexpr] at hroot
    cases h <;> cases hroot <;> rfl
  exact Expr.zoomCurve_eq_some_iff.mpr hfound

end CurveOf

/-- The label and the tree of a group in the curve over the zoom level. -/
def SpellsGroup (name : String) (type : ValueType) (group : Group) (stop : Float × Expr) : Prop :=
  stop.1 = group.zoom.toFloat ∧ (group.body.expression name).Spells type stop.2

theorem spells_overBoth {name : String} {curve : Curve} {groups : List Group} {expr : Expr}
    {type : ValueType} (h : (overBoth name curve groups).expression.Spells type expr) :
    ∃ first rest curve', List.Forall₂ (SpellsGroup name type) groups (first :: rest) ∧
      CurveOf first rest expr curve' := by
  have hgroups : ∀ {groups : List Group} {found : List (Float × Expr)},
      SpellStops type (groups.map (fun group => (group.zoom, group.body.expression name))) found →
        List.Forall₂ (SpellsGroup name type) groups found := by
    intro groups found hspell
    rwa [SpellStops, List.forall₂_map_left_iff] at hspell
  cases curve with
  | interval =>
    cases groups with
    | nil => exact absurd h not_spells_interval_nil
    | cons group groups =>
      obtain ⟨input, first, found, hinput, hfirst, hfound, hascending, rfl⟩ := spells_interval.mp h
      obtain rfl := spells_zoomLevel.mp hinput
      rw [← hfound.labels, List.isChain_iff_pairwise] at hascending
      exact ⟨(group.zoom.toFloat, first), found, _, .cons ⟨rfl, hfirst⟩ (hgroups hfound),
        .step hascending⟩
  | exponential base =>
    obtain ⟨hne, _, input, found, hinput, hfound, hascending, rfl⟩ := spells_exponential.mp h
    obtain rfl := spells_zoomLevel.mp hinput
    rw [← hfound.labels, List.isChain_iff_pairwise] at hascending
    cases found with
    | nil =>
      cases hgroups hfound
      exact absurd rfl hne
    | cons first rest =>
      have hrate : rate base ≠ .step := by cases base <;> simp [rate]
      exact ⟨first, rest, _, hgroups hfound, .interpolate hrate hascending⟩

/-- The label of a group and its tree. -/
def CompiledGroup.stop (group : CompiledGroup) : Float × Expr :=
  (group.zoom, group.compiled.expr)

/-- **The groups are compiled on their own**, and share the default with the whole. -/
theorem exists_groups {settings : Settings} {name : String} {curve : Curve}
    {stops : List CompositeStop} {groups' : List Group} {found : List (Float × Expr)}
    (hgroups : groups settings (runs stops) = .ok groups')
    (hbodies : ∀ part body, part ≠ [] → isComposite part = false → settings.body part = .ok body →
      read (withStops members part) spec = .ok (.overProperty name body))
    (hcompile : PropertyExpression.compile (overBoth name curve groups').expression spec options =
      .ok compiled)
    (hfound : List.Forall₂ (SpellsGroup name spec.type) groups' found)
    (hchildren : ∀ stop ∈ found, stop.2 ∈ compiled.expr.children) :
    ∃ compiledGroups : List CompiledGroup,
      List.Forall₂ (CompilesGroup members spec options) (stops.splitBy sameZoom) compiledGroups ∧
      (∀ group ∈ compiledGroups, group.compiled.SharesDefault compiled) ∧
      compiledGroups.map (·.stop) = found := by
  have hparts := ((runs_eq_splitBy stops).comp (groups_eq_ok_iff.mp hgroups)).comp hfound
  obtain ⟨compiledGroups, hall, hstops⟩ := hparts.exists_between
      (S := CompilesGroup members spec options)
      (T := fun group stop => group.compiled.SharesDefault compiled ∧ group.stop = stop) (by
    rintro part stop hstop ⟨group, ⟨run, ⟨first, rest, rfl, rfl⟩, hzoom, hbody⟩, hlabel, hspells⟩
    have hplain := isComposite_of_body hbody hspells
    have hread := hbodies _ _ (by simp) hplain hbody
    have hpart : (overProperty name group.body).expression.Spells spec.type stop.2 := hspells
    obtain ⟨compiled', hcompile', hexpr, hshared⟩ := PropertyExpression.compile_child hcompile
      (hchildren stop hstop) hpart (Body.hasTree_of_spells hspells).isZoomConstant
    refine ⟨⟨stop.1, compiled'⟩, ⟨?_, _, hread, hcompile'⟩, hshared, ?_⟩
    · rw [hlabel, hzoom]
      rfl
    · rw [CompiledGroup.stop, hexpr])
  obtain ⟨hshared, hstops⟩ := (List.forall₂_and_left _ _).mp hstops
  rw [← List.forall₂_map_left_iff, List.forall₂_eq_eq_eq] at hstops
  exact ⟨compiledGroups, hall, hshared, hstops⟩

/-! ## Outcomes of a function of both -/

/-- At a zoom level the outcome of the whole is that of the group that the zoom level belongs to.
Between two zoom levels of a curve that blends, the tree blends the outcomes of the trees of both
groups, before a default steps in. -/
structure FollowsGroups (interpolation : Interpolation) (first : CompiledGroup)
    (rest : List CompiledGroup) (compiled : PropertyExpression) (zoom : Float)
    (feature : Option Feature) : Prop where
  step : interpolation = .step →
    compiled.evaluate ⟨some zoom, feature⟩ =
      ((rest.filter (fun group => decide (group.zoom ≤ zoom))).getLast?.getD
        first).compiled.evaluate ⟨some zoom, feature⟩
  below : interpolation ≠ .step → zoom ≤ first.zoom →
    compiled.evaluate ⟨some zoom, feature⟩ = first.compiled.evaluate ⟨some zoom, feature⟩
  above : interpolation ≠ .step → ∀ last, (first :: rest).getLast? = some last →
    last.zoom ≤ zoom →
      compiled.evaluate ⟨some zoom, feature⟩ = last.compiled.evaluate ⟨some zoom, feature⟩
  between : interpolation ≠ .step → ∀ lower upper, [lower, upper] <:+: first :: rest →
    lower.zoom < zoom → zoom < upper.zoom →
      compiled.expr.eval ⟨some zoom, feature⟩ =
        (lower.compiled.expr.eval ⟨some zoom, feature⟩).bind (fun a =>
          (upper.compiled.expr.eval ⟨some zoom, feature⟩).bind (fun b =>
            Value.blend (interpolation.factor zoom lower.zoom upper.zoom) a b))

variable {first : CompiledGroup} {rest : List CompiledGroup} {zoom : Float}
  {feature : Option Feature}

/-- **A curve over the zoom level follows its groups.** -/
theorem CurveOf.follows {curve : ZoomCurve}
    (h : CurveOf first.stop (rest.map (·.stop)) compiled.expr curve)
    (hshared : ∀ group ∈ first :: rest, group.compiled.SharesDefault compiled)
    (hnan : zoom.isNaN = false) :
    FollowsGroups curve.interpolation first rest compiled zoom feature := by
  generalize hexpr : compiled.expr = expr at h
  cases h with
  | step hascending =>
    refine ⟨fun _ => ?_, fun h => absurd rfl h, fun h => absurd rfl h, fun h => absurd rfl h⟩
    have hmem : (rest.filter (fun group => decide (group.zoom ≤ zoom))).getLast?.getD first ∈
        first :: rest := by
      cases hlast : (rest.filter (fun group => decide (group.zoom ≤ zoom))).getLast? with
      | none => exact List.mem_cons_self
      | some group =>
        exact List.mem_cons_of_mem _ (List.mem_of_mem_filter (List.mem_of_getLast? hlast))
    refine (hshared _ hmem).evaluate_eq ?_
    rw [hexpr, Expr.eval_step (Expr.stopInput_zoom _ hnan) hascending, List.filter_map,
      List.map_map, List.getLast?_map]
    exact congrArg (Expr.eval _) (Option.getD_map (fun group => group.compiled.expr) first _)
  | @interpolate interpolation hne hascending =>
    refine ⟨fun h => absurd h hne, fun _ hle => ?_, fun _ last hlast hle => ?_,
      fun _ lower upper hnext hlower hupper => ?_⟩
    · refine (hshared first List.mem_cons_self).evaluate_eq ?_
      have hfirst : (first.stop :: rest.map (·.stop)).head? = some first.stop := rfl
      rw [hexpr]
      exact Expr.eval_interpolate_below (Expr.stopInput_zoom _ hnan) hfirst hle
    · refine (hshared last (List.mem_of_getLast? hlast)).evaluate_eq ?_
      have hlast' : (first.stop :: rest.map (·.stop)).getLast? = some last.stop := by
        rw [← List.map_cons (f := CompiledGroup.stop), List.getLast?_map, hlast]
        rfl
      rw [hexpr]
      exact Expr.eval_interpolate_above (Expr.stopInput_zoom _ hnan) hascending hlast' hle
    · have hnext' : [lower.stop, upper.stop] <:+: first.stop :: rest.map (·.stop) :=
        hnext.map CompiledGroup.stop
      rw [hexpr]
      exact Expr.eval_interpolate_between (Expr.stopInput_zoom _ hnan) hascending
        (Expr.not_le_head hascending (hnext'.subset List.mem_cons_self) hlower) hnext'
        (Number.le_of_lt hlower) hupper

/-- **A function of both the zoom level and a property lifts functions of the property.** Its groups
are the longest runs of stops with one zoom level, and the function with the stops of one group is
read and compiled as well. At every zoom level the function of both follows its groups. The one
exception is an identity function, which does not look at its stops. -/
theorem composite_follows_groups (hread : read (.object members) spec = .ok function)
    (hcompile : PropertyExpression.compile function.expression spec options = .ok compiled)
    (hstops : members.lookup "stops" = some (writtenStops written))
    (hcomposite : isComposite written = true) :
    (members.lookup "type" = some (.string "identity") ∧ compiled.expr.zoomCurve? = none) ∨
    ∃ stops first rest curve, List.Forall₂ IsCompositeStop written stops ∧
      List.Forall₂ (CompilesGroup members spec options) (stops.splitBy sameZoom)
        (first :: rest) ∧
      compiled.expr.zoomCurve? = some curve ∧
      ∀ zoom feature, zoom.isNaN = false →
        FollowsGroups curve.interpolation first rest compiled zoom feature := by
  obtain ⟨typed, _, hcheck, _, _, hcompiled⟩ := PropertyExpression.compile_eq_ok_iff.mp hcompile
  have hspells : function.expression.Spells spec.type compiled.expr :=
    ⟨typed, hcheck, by rw [hcompiled]⟩
  rcases read_composite hread hstops hcomposite with
    ⟨hidentity, name, rfl⟩ | ⟨settings, name, stops, groups', hwritten, hgroups, rfl, hbodies⟩
  · refine Or.inl ⟨hidentity, ?_⟩
    rw [spells_identity.mp hspells]
    cases spec.type <;> rfl
  · obtain ⟨firstStop, restStops, curve, hfound, hcurve⟩ := spells_overBoth hspells
    obtain ⟨compiledGroups, hcompiledGroups, hshared, hstops⟩ :=
      exists_groups hgroups hbodies hcompile hfound hcurve.children
    cases compiledGroups with
    | nil => contradiction
    | cons first rest =>
      obtain ⟨rfl, rfl⟩ := List.cons.inj hstops
      exact Or.inr ⟨stops, first, rest, curve, hwritten, hcompiledGroups,
        hcurve.zoomCurve hcompile rfl, fun zoom feature hnan => hcurve.follows hshared hnan⟩

/-- The stops of a line width that grows with the zoom level and with a property. -/
def widthStops : List (Json × Json) :=
  let stop (zoom value width : Int) : Json × Json :=
    (.object [("value", .number (.integer value)), ("zoom", .number (.integer zoom))],
      .number (.integer width))
  [stop 5 0 1, stop 5 100 2, stop 15 0 4, stop 15 100 8]

/-- A line width that grows with both has two groups of stops. -/
theorem composite_follows_groups_widthStops :
    ∃ function compiled, read (.object [("property", .string "lanes"),
        ("stops", writtenStops widthStops)]) { kind := .number } = .ok function ∧
      PropertyExpression.compile function.expression { kind := .number } {} = .ok compiled ∧
      isComposite widthStops = true ∧
      ∃ stops first rest curve, List.Forall₂ IsCompositeStop widthStops stops ∧
        compiled.expr.zoomCurve? = some curve ∧
        FollowsGroups curve.interpolation first rest compiled 10 none := by
  let function : StopFunction :=
    .overBoth "lanes" (.exponential none)
      [⟨.integer 5, .ordered (.exponential none)
          [(.integer 0, .number (.integer 1)), (.integer 100, .number (.integer 2))]⟩,
        ⟨.integer 15, .ordered (.exponential none)
          [(.integer 0, .number (.integer 4)), (.integer 100, .number (.integer 8))]⟩]
  have hread : read (.object [("property", .string "lanes"),
      ("stops", writtenStops widthStops)]) { kind := .number } = .ok function := rfl
  obtain ⟨compiled, hcompile⟩ := Except.exists_of_isOk (x := PropertyExpression.compile
    function.expression { kind := .number } {}) rfl
  refine ⟨function, compiled, hread, hcompile, rfl, ?_⟩
  rcases composite_follows_groups hread hcompile rfl rfl with
    ⟨hidentity, _⟩ | ⟨stops, first, rest, curve, hwritten, _, hcurve, hfollows⟩
  · simp [List.lookup] at hidentity
  · exact ⟨stops, first, rest, curve, hwritten, hcurve, hfollows 10 none rfl⟩

end StopFunction

end Symbology
