import CodeAtlas.Proofs.Outline.Flags
import CodeAtlas.Proofs.Relation.Extraction

/-!
# Injected types

A Java class has one list of constructor parameters, and all of its constructors share it: each adds
the parameters whose names the list still lacks. So a parameter is on the list exactly if no earlier
constructor has one of its name (`Java.mem_foldl_addConstructor`); the types do not count. A class that
some constructor takes is injected as long as the earlier constructors take it, too, wherever they take
something of that name (`RelationReport.injects_ofTree`). Otherwise it may be lost:
`RelationReport.loses_overload` is a class with two constructors of one parameter each.
-/

namespace CodeAtlas

open Annotation (describe)
open Syntax

/-- **An annotation names a class**: that is what it comes down to without the arrays, containers and
wrappers around it. -/
def Annotation.NamesClass (written target : String) : Prop :=
  ∃ core, core? written = some core ∧ core.name = target ∧ TypeName.classify target = .declared

/-- An annotation that comes down to nothing names no class. -/
theorem Annotation.not_namesClass {written target : String} (h : core? written = none) :
    ¬ NamesClass written target := by
  rintro ⟨core, hcore, -⟩
  rw [h] at hcore
  cases hcore

/-- An annotation that names a class resolves to it. -/
theorem ResolvedType.exists_of_namesClass {written target : String} (imports : List Import)
    (h : Annotation.NamesClass written target) :
    ∃ type, classType? imports (some written) = some type ∧ type.name = target := by
  obtain ⟨core, hcore, rfl, hdeclared⟩ := h
  have hdescribed : (describe (some written)).2 = true := by
    have hread : (some written).bind Annotation.core? = some core := hcore
    rw [describe, hread]
    exact beq_iff_eq.2 hdeclared
  obtain ⟨type, htype⟩ := exists_of_describe imports hdescribed
  have hflag : type.isClassType = true :=
    (congrArg Prod.snd (flags_of_ofAnnotation? htype)).trans hdescribed
  have hclass : classType? imports (some written) = some type :=
    Option.filter_eq_some_iff.2 ⟨htype, hflag⟩
  -- the type has been read from the same annotation
  obtain ⟨text, heq, hread⟩ := exists_isReadFrom hclass
  obtain ⟨other, hother, hname, -⟩ := hread.core
  rw [← Option.some.inj heq, hcore] at hother
  rw [← Option.some.inj hother] at hname
  exact ⟨type, hclass, hname.symm⟩

namespace Outline.Java

variable {node : Node} {nodes : List Node} {known : Option (List Parameter)} {p : Parameter}
  {name written : String}

/-! ## 1. What a constructor takes -/

/-- **A parameter has a name and a type.** Dimensions after the name belong to the type, and a variable
number of arguments is an array. -/
inductive IsParameter (node : Node) (name written : String) : Prop
  | one {type : Node} (hkind : node.kind = "formal_parameter")
      (hname : node.fieldText "name" = name) (htype : node.field? "type" = some type)
      (hwritten : written = type.text ++ node.fieldText "dimensions")
  | many {before after : List Node} {type declarator : Node} (hkind : node.kind = "spread_parameter")
      (hdeclarator : node.child? ["variable_declarator"] = some declarator)
      (hname : declarator.fieldText "name" = name) (hparts : node.named = before ++ type :: after)
      (hbefore : ∀ n ∈ before, n.kind = "modifiers") (htype : type.kind ≠ "modifiers")
      (hnotName : type.kind ≠ "variable_declarator") (hwritten : written = type.text ++ "[]")

/-- The parameters that a node of a body adds to its class, if it is a constructor. -/
def constructorParameters (node : Node) : List Parameter :=
  if node.kind == "constructor_declaration" then parameters (node.field? "parameters") else []

/-- **A class takes a type** under a name, in the constructor that stands after some members of its
body. -/
structure Takes (type : Node) (before : List Node) (name written : String) : Prop where
  isClass : type.kind = "class_declaration"
  inConstructor : ∃ body ctor after list param, BodyOf type body ∧
    body.named = before ++ ctor :: after ∧ ctor.kind = "constructor_declaration" ∧
    ctor.field? "parameters" = some list ∧ param ∈ list.named ∧ IsParameter param name written

/-- **A name is new** after some members of a body if no constructor among them has it. -/
def IsNew (before : List Node) (name : String) : Prop :=
  ∀ n ∈ before, ∀ q ∈ constructorParameters n, q.name ≠ name

/-- **The reader of parameters finds the name and the type**, provided that the type names a class. -/
theorem parameter?_of_isParameter {target : String} (h : IsParameter node name written)
    (hclass : Annotation.NamesClass written target) :
    ∃ p, parameter? node = some p ∧ p.name = name ∧ p.type = some written := by
  cases h with
  | @one type hkind hname htype hwritten =>
    have hne : written ≠ "" := by
      rintro rfl
      exact Annotation.not_namesClass (by decide +kernel) hclass
    have hread : typeText (node.field? "type") node = written := by
      rw [typeText, htype, hwritten]
      rfl
    refine ⟨_, by rw [parameter?, if_pos (beq_iff_eq.2 hkind)], hname, ?_⟩
    rw [hread]
    exact nonempty?_of_ne hne
  | @many before after type declarator hkind hdeclarator hname hparts hbefore htype hnotName hwritten =>
    subst hwritten
    have hne : type.text ≠ "" := by
      intro hempty
      rw [hempty] at hclass
      exact Annotation.not_namesClass (by decide +kernel) hclass
    -- the type is the first part that is neither modifiers nor the name
    have hfind : (node.named.find? fun c =>
        c.kind != "modifiers" && c.kind != "variable_declarator") = some type := by
      rw [hparts, List.find?_append, List.find?_eq_none.2, Option.none_or, List.find?_cons_of_pos]
      · simp [htype, hnotName]
      · intro n hn
        simp [hbefore n hn]
    have hother : ¬ (node.kind == "formal_parameter") = true := by
      rw [hkind]
      decide
    refine ⟨_, by rw [parameter?, if_neg hother, if_pos (beq_iff_eq.2 hkind)], ?_, ?_⟩
    · rw [hdeclarator]
      exact hname
    · rw [hfind]
      change (nonempty? type.text).map (· ++ "[]") = _
      rw [nonempty?_of_ne hne]
      rfl

/-! ## 2. What the constructors of a class add up to -/

/-- One constructor adds the parameters whose names are not known. -/
theorem mem_addConstructor : p ∈ (addConstructor known node).getD [] ↔
    p ∈ known.getD [] ∨
      (p ∈ constructorParameters node ∧ ∀ q ∈ known.getD [], q.name ≠ p.name) := by
  unfold addConstructor constructorParameters
  split
  · cases known with
    | none => simp
    | some ps => simp [List.mem_append, List.mem_filter]
  · simp

/-- A name is unknown after one more constructor if it was, and the constructor does not have it. -/
theorem forall_name_ne_addConstructor : (∀ q ∈ (addConstructor known node).getD [], q.name ≠ name) ↔
    (∀ q ∈ known.getD [], q.name ≠ name) ∧ ∀ q ∈ constructorParameters node, q.name ≠ name := by
  simp only [mem_addConstructor]
  constructor
  · intro h
    refine ⟨fun q hq => h q (.inl hq), fun q hq heq => ?_⟩
    -- a parameter that is not added has a name that was known
    by_cases hknown : ∀ r ∈ known.getD [], r.name ≠ q.name
    · exact h q (.inr ⟨hq, hknown⟩) heq
    · push Not at hknown
      obtain ⟨r, hr, hsame⟩ := hknown
      exact h r (.inl hr) (hsame.trans heq)
  · rintro ⟨hknown, hown⟩ q (hq | ⟨hq, -⟩)
    · exact hknown q hq
    · exact hown q hq

/-- **The first constructor with a name settles its type.** A parameter is on the list if it was known,
or if it stands in a constructor and its name is neither known nor in an earlier constructor. -/
theorem mem_foldl_addConstructor : p ∈ (nodes.foldl addConstructor known).getD [] ↔
    p ∈ known.getD [] ∨ ((∀ q ∈ known.getD [], q.name ≠ p.name) ∧
      ∃ before n after, nodes = before ++ n :: after ∧ p ∈ constructorParameters n ∧
        IsNew before p.name) := by
  induction nodes generalizing known with
  | nil => simp
  | cons n rest ih =>
    rw [List.foldl_cons, ih, mem_addConstructor, forall_name_ne_addConstructor]
    constructor
    · rintro ((hknown | ⟨hown, hnew⟩) | ⟨⟨hknown, hown⟩, before, m, after, rfl, hp, hnew⟩)
      · exact .inl hknown
      · exact .inr ⟨hnew, [], n, rest, rfl, hown, fun _ h => absurd h List.not_mem_nil⟩
      · refine .inr ⟨hknown, n :: before, m, after, rfl, hp, ?_⟩
        exact List.forall_mem_cons.2 ⟨hown, hnew⟩
    · rintro (hknown | ⟨hknown, before, m, after, heq, hp, hnew⟩)
      · exact .inl (.inl hknown)
      · cases before with
        | nil =>
          obtain ⟨rfl, rfl⟩ := List.cons.inj heq
          exact .inl (.inr ⟨hp, hknown⟩)
        | cons b before =>
          obtain ⟨rfl, rfl⟩ := List.cons.inj heq
          obtain ⟨hown, hrest⟩ := List.forall_mem_cons.1 hnew
          exact .inr ⟨⟨hknown, hown⟩, before, m, after, rfl, hp, hrest⟩

/-- A parameter with a new name is on the list, whatever the constructors after it take. -/
theorem mem_foldl_of_isNew {before : List Node} (hp : p ∈ constructorParameters node)
    (hnew : IsNew before p.name) (after : List Node) :
    p ∈ ((before ++ node :: after).foldl addConstructor none).getD [] := by
  have hunknown : ∀ q ∈ (none : Option (List Parameter)).getD [], q.name ≠ p.name := nofun
  exact mem_foldl_addConstructor.2 (.inr ⟨hunknown, before, node, after, rfl, hp, hnew⟩)

/-- Among some members of a body there is a first constructor with a name, unless it is new. -/
theorem exists_first_of_not_isNew (h : ¬ IsNew nodes name) :
    ∃ before n after q, nodes = before ++ n :: after ∧ q ∈ constructorParameters n ∧ q.name = name ∧
      IsNew before name := by
  induction nodes with
  | nil => exact absurd (fun _ hn => absurd hn List.not_mem_nil) h
  | cons n rest ih =>
    by_cases hown : ∀ q ∈ constructorParameters n, q.name ≠ name
    · obtain ⟨before, m, after, q, rfl, hq, hname, hnew⟩ :=
        ih fun hrest => h (List.forall_mem_cons.2 ⟨hown, hrest⟩)
      exact ⟨n :: before, m, after, q, rfl, hq, hname, List.forall_mem_cons.2 ⟨hown, hnew⟩⟩
    · push Not at hown
      obtain ⟨q, hq, hname⟩ := hown
      exact ⟨[], n, rest, q, rfl, hq, hname, fun _ h => absurd h List.not_mem_nil⟩

/-- **A class that is taken stands on the list of parameters**, under the name or under the same name in
an earlier constructor. -/
theorem exists_mem_of_takes {type : Node} {before : List Node} {target : String} (path : String)
    (h : Takes type before name written) (hclass : Annotation.NamesClass written target)
    (hagree : ∀ n ∈ before, ∀ q ∈ constructorParameters n, q.name = name →
      ∃ text, q.type = some text ∧ Annotation.NamesClass text target) :
    ∃ q ∈ (ownClass path type).constructorParameters.getD [],
      ∃ text, q.type = some text ∧ Annotation.NamesClass text target := by
  obtain ⟨body, ctor, after, list, param, hbody, hmembers, hctor, hlist, hparam, his⟩ :=
    h.inConstructor
  obtain ⟨p, hread, hname, htype⟩ := parameter?_of_isParameter his hclass
  have hown : p ∈ constructorParameters ctor := by
    rw [constructorParameters, if_pos (beq_iff_eq.2 hctor), hlist]
    exact List.mem_filterMap.2 ⟨param, hparam, hread⟩
  have hlisted : (ownClass path type).constructorParameters
      = (before ++ ctor :: after).foldl addConstructor none := by
    rw [← hmembers, ← hbody.bodyMembers_eq]
    simp only [ownClass, h.isClass]
    rfl
  rw [hlisted]
  -- if an earlier constructor has the name, the first that has it put it on the list
  by_cases hnew : IsNew before name
  · rw [← hname] at hnew
    exact ⟨p, mem_foldl_of_isNew hown hnew after, written, htype, hclass⟩
  · obtain ⟨front, n, back, q, rfl, hq, hqname, hfirst⟩ := exists_first_of_not_isNew hnew
    rw [← hqname] at hfirst
    have hlisted := mem_foldl_of_isNew hq hfirst (back ++ ctor :: after)
    rw [← List.cons_append, ← List.append_assoc] at hlisted
    exact ⟨q, hlisted, hagree n (by simp) q hq hqname⟩

end Outline.Java

/-! ## 3. Injections -/

namespace Relation

/-- **Each parameter of a constructor that names a class gives an injection.** -/
theorem exists_mem_ofConstructor (imports : List Import) {c : ClassDecl} {p : Parameter}
    {text target : String} (hp : p ∈ c.constructorParameters.getD []) (htype : p.type = some text)
    (hclass : Annotation.NamesClass text target) :
    ∃ r ∈ ofConstructor imports c,
      r.kind = .injection ∧ r.source = c.name ∧ r.target = target := by
  obtain ⟨type, hresolved, hname⟩ := ResolvedType.exists_of_namesClass imports hclass
  refine ⟨between c type .injection none c.line s!"constructor({p.name})",
    List.mem_filterMap.2 ⟨p, hp, ?_⟩, rfl, rfl, hname⟩
  rw [htype, hresolved]
  rfl

end Relation

open Outline Outline.Java

/-- **Constructors inject what they take.** In every tree without faults, a class that a constructor
takes under some name is injected, if the earlier constructors that have the name take it, too. -/
theorem RelationReport.injects_ofTree {path name written target : String} {root type : Node}
    {place : List Nat} {before : List Node} (hsound : root.firstFault? = none)
    (hplace : TypeAt root.named place type) (htakes : Takes type before name written)
    (hclass : Annotation.NamesClass written target)
    (hagree : ∀ n ∈ before, ∀ q ∈ constructorParameters n, q.name = name →
      ∃ text, q.type = some text ∧ Annotation.NamesClass text target) :
    ∃ o, ofTree .java path root = .ok o ∧ ∃ r ∈ (ofOutline o).injections,
      r.kind = .injection ∧ r.source = type.fieldText "name" ∧ r.target = target := by
  obtain ⟨p, hp, text, htype, hnames⟩ := exists_mem_of_takes path htakes hclass hagree
  obtain ⟨r, hr, hkind, hsource, htarget⟩ :=
    Relation.exists_mem_ofConstructor (ofSoundTree .java path root).imports hp htype hnames
  have hdeclared : ownClass path type ∈ (ofSoundTree .java path root).classes := by
    rw [classes_outline]
    exact List.mem_map.2 ⟨(place, type), mem_placesIn.2 hplace, rfl⟩
  refine ⟨_, ofTree_of_sound hsound, r, List.mem_flatMap.2 ⟨_, hdeclared, hr⟩, hkind, ?_, htarget⟩
  exact hsource.trans (ownClass_spec path type).1

/-! ## 4. Two constructors of one parameter each -/

/-- The text of a class with two constructors, the second one with a parameter of the given name. -/
def overloadText (second : String) : String :=
  "class A \x7b A(B x) \x7b\x7d A(C " ++ second ++ ") \x7b\x7d \x7d"

/-- A parameter of a constructor in that text. -/
def overloadParameter (second : String) (id start : Nat) : Node :=
  let rule := (Source.ofString (overloadText second)).rule
  rule (id + 4) "formal_parameter" none (start + 2) (start + 5)
    [rule (id + 5) "type_identifier" (some "type") (start + 2) (start + 3) [],
      rule (id + 6) "identifier" (some "name") (start + 4) (start + 5) []]

/-- The parameter list of a constructor in that text. -/
def overloadParameters (second : String) (id start : Nat) : Node :=
  let rule := (Source.ofString (overloadText second)).rule
  let token := (Source.ofString (overloadText second)).token
  rule (id + 2) "formal_parameters" (some "parameters") (start + 1) (start + 6)
    [token (id + 3) "(" (start + 1) (start + 2), overloadParameter second id start,
      token (id + 7) ")" (start + 5) (start + 6)]

/-- A constructor in that text. -/
def overloadConstructor (second : String) (id start : Nat) : Node :=
  let rule := (Source.ofString (overloadText second)).rule
  let token := (Source.ofString (overloadText second)).token
  rule id "constructor_declaration" none start (start + 9)
    [rule (id + 1) "identifier" (some "name") start (start + 1) [], overloadParameters second id start,
      rule (id + 8) "constructor_body" (some "body") (start + 7) (start + 9)
        [token (id + 9) "\x7b" (start + 7) (start + 8),
          token (id + 10) "\x7d" (start + 8) (start + 9)]]

/-- The body of the class in that text. -/
def overloadBody (second : String) : Node :=
  let rule := (Source.ofString (overloadText second)).rule
  let token := (Source.ofString (overloadText second)).token
  rule 4 "class_body" (some "body") 8 31
    [token 5 "\x7b" 8 9, overloadConstructor second 6 10, overloadConstructor second 17 20,
      token 28 "\x7d" 30 31]

/-- The class in that text. -/
def overloadClass (second : String) : Node :=
  let rule := (Source.ofString (overloadText second)).rule
  let token := (Source.ofString (overloadText second)).token
  rule 1 "class_declaration" none 0 31
    [token 2 "class" 0 5, rule 3 "identifier" (some "name") 6 7 [], overloadBody second]

/-- The tree of that text. -/
def overload (second : String) : Node :=
  (Source.ofString (overloadText second)).rule 0 "program" none 0 31 [overloadClass second]

/-- The second constructor of that class takes a `C`. -/
theorem takes_overload {second : String} (h : second = "x" ∨ second = "y") :
    Takes (overloadClass second) [overloadConstructor second 6 10] second "C" := by
  have hname : (overloadParameter second 17 20).fieldText "name" = second := by
    rcases h with rfl | rfl <;> decide +kernel
  have hwritten : "C" = ((Source.ofString (overloadText second)).rule 22 "type_identifier"
      (some "type") 22 23 []).text ++ (overloadParameter second 17 20).fieldText "dimensions" := by
    rcases h with rfl | rfl <;> decide +kernel
  have hplain : (overloadClass second).kind ≠ "enum_declaration" :=
    show "class_declaration" ≠ "enum_declaration" by decide
  exact
    { isClass := rfl
      inConstructor := ⟨overloadBody second, overloadConstructor second 17 20, [],
        overloadParameters second 17 20, overloadParameter second 17 20, .plain hplain rfl, rfl, rfl,
        rfl, List.mem_singleton_self _, .one rfl hname rfl hwritten⟩ }

theorem namesClass_self : Annotation.NamesClass "C" "C" :=
  ⟨⟨"C", false, []⟩, by decide +kernel, rfl, by decide⟩

/-- With parameters of two names both classes are injected. -/
theorem RelationReport.injects_ofTree_overload :
    (overload "y").firstFault? = none ∧ TypeAt (overload "y").named [0] (overloadClass "y") ∧
      Takes (overloadClass "y") [overloadConstructor "y" 6 10] "y" "C" ∧
      Annotation.NamesClass "C" "C" ∧
      ∃ o, ofTree .java "/A.java" (overload "y") = .ok o ∧ ∃ r ∈ (ofOutline o).injections,
        r.kind = .injection ∧ r.source = (overloadClass "y").fieldText "name" ∧ r.target = "C" := by
  have hsound : (overload "y").firstFault? = none :=
    Option.isNone_iff_eq_none.1 (by decide +kernel)
  have hplace : TypeAt (overload "y").named [0] (overloadClass "y") :=
    .here rfl (by decide +kernel)
  have htakes := takes_overload (.inr rfl)
  have hearlier : constructorParameters (overloadConstructor "y" 6 10)
      = [{ name := "x", type := some "B" }] := by decide +kernel
  refine ⟨hsound, hplace, htakes, namesClass_self,
    injects_ofTree hsound hplace htakes namesClass_self fun n hn q hq hname => ?_⟩
  rw [List.mem_singleton.1 hn, hearlier] at hq
  rw [List.mem_singleton.1 hq] at hname
  exact absurd hname (by decide)

/-- **With two parameters of one name the second class is lost**, though a constructor takes it. -/
theorem RelationReport.loses_overload :
    (overload "x").firstFault? = none ∧ TypeAt (overload "x").named [0] (overloadClass "x") ∧
      Takes (overloadClass "x") [overloadConstructor "x" 6 10] "x" "C" ∧
      Annotation.NamesClass "C" "C" ∧
      ∃ o, ofTree .java "/A.java" (overload "x") = .ok o ∧
        ∀ r ∈ (ofOutline o).injections, r.target ≠ "C" := by
  have hsound : (overload "x").firstFault? = none :=
    Option.isNone_iff_eq_none.1 (by decide +kernel)
  have hnamed : IsNamedType (overloadClass "x") := by decide +kernel
  refine ⟨hsound, .here rfl hnamed, takes_overload (.inl rfl), namesClass_self, _,
    ofTree_of_sound hsound, ?_⟩
  have hclasses : (ofSoundTree .java "/A.java" (overload "x")).classes
      = [ownClass "/A.java" (overloadClass "x")] := by
    have hplaces : placesIn (overload "x").named = [([0], overloadClass "x")] := by
      change (places (overloadClass "x")).map _ ++ [] = _
      have hinside : placesIn (bodyMembers (overloadClass "x")) = [] := by
        change (places (overloadConstructor "x" 6 10)).map _ ++
          ((places (overloadConstructor "x" 17 20)).map _ ++ []) = _
        rw [places_of_not (by decide +kernel), places_of_not (by decide +kernel)]
        rfl
      rw [places_of_isNamedType hnamed, hinside]
      rfl
    rw [classes_outline, hplaces]
    rfl
  have hlisted : (ownClass "/A.java" (overloadClass "x")).constructorParameters
      = some [{ name := "x", type := some "B" }] := by decide +kernel
  intro r hr
  obtain ⟨c, hc, hr⟩ := List.mem_flatMap.1 hr
  rw [hclasses] at hc
  rw [List.mem_singleton.1 hc, Relation.ofConstructor, hlisted] at hr
  obtain ⟨p, hp, hr⟩ := List.mem_filterMap.1 hr
  rw [List.mem_singleton.1 hp] at hr
  obtain ⟨type, htype, rfl⟩ := Option.map_eq_some_iff.1 hr
  -- the only injection goes to what the annotation of the first `x` comes down to
  obtain ⟨text, heq, hread⟩ := ResolvedType.exists_isReadFrom htype
  obtain ⟨core, hcore, hname, -⟩ := hread.core
  have hfirst : Annotation.core? "B" = some ⟨"B", false, []⟩ := by decide +kernel
  rw [← Option.some.inj heq, hfirst] at hcore
  change type.name ≠ "C"
  rw [← hname, ← Option.some.inj hcore]
  decide

end CodeAtlas
