import CodeAtlas.Proofs.Outline.Comment.Java
import CodeAtlas.Proofs.Outline.Comment.Python
import CodeAtlas.Proofs.Outline.Comment.ScriptImport
import CodeAtlas.Proofs.Outline.Place

/-!
# Outlines and comments

A tree without faults and the same tree without its comments have the same outline, if every comment
stands where the readers of the language pass over it (`Outline.ofTree_withoutComments`). The
condition is needed: a comment that opens a superclass clause is taken for the base
(`Outline.Java.exists_comment_base`), as in `class C extends /*an*/ B {}`
(`Outline.base_commentedClause`).
-/

namespace CodeAtlas.Outline

open Syntax

/-! ## 1. Comments that are passed over -/

/-- Whether the readers of a language pass over all comments of a tree. -/
def skipsComments (language : Language) (root : Node) : Bool :=
  match language with
  | .java => Java.isClear root
  | .python => Python.isClear root
  | .typescript | .javascript | .go => Script.isClear root && !Script.hidesImport root

theorem ofSoundTree_withoutComments {language : Language} (path : String) {root : Node}
    (h : skipsComments language root = true) :
    ofSoundTree language path root.withoutComments
      = { ofSoundTree language path root with tree := some root.withoutComments } := by
  have hscript : Script.isClear root = true → Script.hidesImport root = false →
      Script.outline language path root.withoutComments
        = { Script.outline language path root with tree := some root.withoutComments } :=
    Script.outline_withoutComments language path
  cases language with
  | java => exact Java.outline_withoutComments path h
  | python => exact Python.outline_withoutComments path h
  | typescript | javascript | go =>
    obtain ⟨hclear, himport⟩ := Bool.and_eq_true_iff.1 h
    exact hscript hclear (by rwa [Bool.not_eq_true'] at himport)

/-- **Comments never change an outline** where the readers pass over them: without its comments a
tree gives the same classes, interfaces, functions, imports and exports. -/
theorem ofTree_withoutComments {language : Language} {path : String} {root : Node} {o : Outline}
    (h : ofTree language path root = .ok o) (hskips : skipsComments language root = true) :
    ofTree language path root.withoutComments = .ok { o with tree := some root.withoutComments } := by
  rw [ofTree] at h
  split at h
  · cases h
  · rename_i hsound
    cases h
    rw [ofTree_of_sound (Node.firstFault?_withoutComments hsound),
      ofSoundTree_withoutComments path hskips]

/-! ## 2. A comment in front of a clause, and one in it -/

/-- The tree of `class C /*an*/ extends B {}`. -/
def commentedHeader : Node :=
  let rule := (Source.ofString "class C /*an*/ extends B \x7b\x7d").rule
  let token := (Source.ofString "class C /*an*/ extends B \x7b\x7d").token
  rule 0 "program" none 0 27
    [rule 1 "class_declaration" none 0 27
      [token 2 "class" 0 5, rule 3 "identifier" (some "name") 6 7 [],
        rule 4 "block_comment" none 8 14 [],
        rule 5 "superclass" (some "superclass") 15 24
          [token 6 "extends" 15 22, rule 7 "type_identifier" none 23 24 []],
        rule 8 "class_body" (some "body") 25 27 [token 9 "\x7b" 25 26, token 10 "\x7d" 26 27]]]

/-- The comment of `commentedHeader` is passed over. -/
theorem ofTree_withoutComments_commentedHeader :
    ofTree .java "/C.java" commentedHeader = .ok (ofSoundTree .java "/C.java" commentedHeader) ∧
      skipsComments .java commentedHeader = true ∧
      (commentedHeader.sites.any fun site => site.node.isComment) = true ∧
      ofTree .java "/C.java" commentedHeader.withoutComments
        = .ok { ofSoundTree .java "/C.java" commentedHeader with
            tree := some commentedHeader.withoutComments } := by
  have hsound : commentedHeader.firstFault? = none :=
    Option.isNone_iff_eq_none.1 (by decide +kernel)
  have htree : ofTree .java "/C.java" commentedHeader
      = .ok (ofSoundTree .java "/C.java" commentedHeader) := ofTree_of_sound hsound
  have hskips : skipsComments .java commentedHeader = true := by decide +kernel
  exact ⟨htree, hskips, by decide +kernel, ofTree_withoutComments htree hskips⟩

/-- **A comment that opens a superclass clause is taken for the base** of the class. -/
theorem Java.exists_comment_base {path name : String} {node clause : Node}
    (hkind : (node.kind == "class_declaration") = true)
    (hclause : node.field? "superclass" = some clause) (hopens : clause.opensWithComment = true) :
    ∃ comment ∈ clause.named, comment.isComment = true ∧
      (Java.classDecl path name node).base = some (typeHead comment.text) := by
  obtain ⟨comment, hhead, hcomment⟩ := (Option.any_eq_true _ _).1 hopens
  refine ⟨comment, List.mem_of_mem_head? hhead, hcomment, ?_⟩
  rw [Java.classDecl]
  dsimp only
  rw [if_pos hkind, hclause, Option.bind_some, hhead, Option.map_some]

/-- The class in the tree of `class C extends /*an*/ B {}`. -/
def commentedClause : Node :=
  let rule := (Source.ofString "class C extends /*an*/ B \x7b\x7d").rule
  let token := (Source.ofString "class C extends /*an*/ B \x7b\x7d").token
  rule 1 "class_declaration" none 0 27
    [token 2 "class" 0 5, rule 3 "identifier" (some "name") 6 7 [],
      rule 4 "superclass" (some "superclass") 8 24
        [token 5 "extends" 8 15, rule 6 "block_comment" none 16 22 [],
          rule 7 "type_identifier" none 23 24 []],
      rule 8 "class_body" (some "body") 25 27 [token 9 "\x7b" 25 26, token 10 "\x7d" 26 27]]

/-- The tree of `class C extends /*an*/ B {}`. -/
def commentedClauseTree : Node :=
  (Source.ofString "class C extends /*an*/ B \x7b\x7d").rule 0 "program" none 0 27 [commentedClause]

theorem classes_ofSoundTree_java {path : String} {root node : Node} (h : root.named = [node]) :
    (ofSoundTree .java path root).classes = (Java.declared path node).classes := by
  change (Declared.concat (root.named.map (Java.declared path))).classes = _
  rw [h, Declared.classes_concat, List.map_cons, List.map_nil, List.flatMap_singleton]

/-- **A comment in the clause is taken for the base**, and without it the base is `B`. -/
theorem base_commentedClause :
    ∃ o bare, ofTree .java "/C.java" commentedClauseTree = .ok o ∧
      ofTree .java "/C.java" commentedClauseTree.withoutComments = .ok bare ∧
      o.classes.map (·.base) = [some "/*an*/"] ∧ bare.classes.map (·.base) = [some "B"] := by
  have hsound : commentedClauseTree.firstFault? = none :=
    Option.isNone_iff_eq_none.1 (by decide +kernel)
  have hnamed : commentedClauseTree.named = [commentedClause] := rfl
  have hbare : commentedClauseTree.withoutComments.named = [commentedClause.withoutComments] := rfl
  refine ⟨_, _, ofTree_of_sound hsound,
    ofTree_of_sound (Node.firstFault?_withoutComments hsound), ?_, ?_⟩
  · rw [classes_ofSoundTree_java hnamed, Java.declared]
    decide +kernel
  · rw [classes_ofSoundTree_java hbare, Java.declared]
    decide +kernel

end CodeAtlas.Outline
