/-
The flattened names of namespaced tools (`vellum-proxy-runtime/src/adapter.rs`,
`NamespaceToolContext`).  A namespace and a tool are joined by two underscores,
which either of them may hold as well, so two tools of a request may get one
name; a call of it is then restored to the tool that the set yields first.
-/
import Vellum.Proxy.ToolContext

namespace Vellum.Proxy

open List

/-- Two tools of one flattened name: the underscores of the separator are
shared between the namespace and the tool in two ways. -/
inductive Confusable : String × String → String × String → Prop
  | underscore (front child : String) :
      Confusable (front, "_" ++ child) (front ++ "_", child)
  | separator (front part child : String) :
      Confusable (front, part ++ "__" ++ child) (front ++ "__" ++ part, child)

variable {left right : String × String}

theorem Confusable.flatten_eq (hconfusable : Confusable left right) :
    flattenNamespaceName left.1 left.2 =
      flattenNamespaceName right.1 right.2 := by
  cases hconfusable with
  | underscore front child =>
    simp only [flattenNamespaceName, String.append_assoc]
    rfl
  | separator front part child =>
    simp only [flattenNamespaceName, String.append_assoc]

theorem Confusable.ne (hconfusable : Confusable left right) : left ≠ right := by
  intro hsame
  have hnames := congrArg (fun tool => tool.1.length) hsame
  cases hconfusable with
  | underscore front child =>
    simp only [String.length_append] at hnames
    exact absurd hnames (Nat.ne_of_lt (Nat.lt_add_of_pos_right (by decide)))
  | separator front part child =>
    simp only [String.length_append, Nat.add_assoc] at hnames
    exact absurd hnames (Nat.ne_of_lt
      (Nat.lt_add_of_pos_right (Nat.add_pos_left (by decide) _)))

theorem separator_toList : "__".toList = ['_', '_'] := by decide

/-- Where the longer namespace goes on, the separator begins. -/
theorem eq_or_confusable {front child child' : String} {more : List Char}
    (heq : "__".toList ++ child.toList =
      more ++ ("__".toList ++ child'.toList)) :
    (front, child) = (front ++ String.ofList more, child') ∨
      Confusable (front, child) (front ++ String.ofList more, child') := by
  rw [separator_toList] at heq
  cases more with
  | nil =>
    simp only [cons_append, nil_append, List.cons.injEq,
      String.toList_inj, true_and] at heq
    rw [heq, String.ofList_nil, String.append_empty]
    exact Or.inl rfl
  | cons c more =>
    simp only [cons_append, nil_append, List.cons.injEq] at heq
    obtain ⟨rfl, heq⟩ := heq
    cases more with
    | nil =>
      simp only [nil_append, List.cons.injEq, true_and] at heq
      have hchild : child = "_" ++ child' := by
        apply String.toList_inj.mp
        rw [String.toList_append, heq]
        rfl
      rw [hchild]
      exact Or.inr (.underscore front child')
    | cons d part =>
      simp only [cons_append, List.cons.injEq] at heq
      obtain ⟨rfl, heq⟩ := heq
      have hchild : child = String.ofList part ++ "__" ++ child' := by
        apply String.toList_inj.mp
        rw [String.toList_append, String.toList_append,
          String.toList_ofList, append_assoc, separator_toList, heq]
        rfl
      have hmore : String.ofList ('_' :: '_' :: part) =
          "__" ++ String.ofList part := by
        apply String.toList_inj.mp
        rw [String.toList_append, separator_toList, String.toList_ofList,
          String.toList_ofList]
        rfl
      rw [hchild, hmore, ← String.append_assoc]
      exact Or.inr (.separator front (String.ofList part) child')

theorem eq_ofList_append {front front' : String} {more : List Char}
    (heq : front'.toList = front.toList ++ more) :
    front' = front ++ String.ofList more := by
  apply String.toList_inj.mp
  rw [String.toList_append, String.toList_ofList, heq]

theorem flattenNamespaceName_eq_iff (left right : String × String) :
    flattenNamespaceName left.1 left.2 =
        flattenNamespaceName right.1 right.2 ↔
      left = right ∨ Confusable left right ∨ Confusable right left := by
  constructor
  · intro heq
    obtain ⟨front, child⟩ := left
    obtain ⟨front', child'⟩ := right
    have hlist := congrArg String.toList heq
    simp only [flattenNamespaceName, String.toList_append,
      append_assoc] at hlist
    rcases append_eq_append_iff.mp hlist with
      ⟨more, hfront, hrest⟩ | ⟨more, hfront, hrest⟩
    · rw [eq_ofList_append hfront]
      rcases eq_or_confusable hrest with hsame | hconfusable
      · exact Or.inl hsame
      · exact Or.inr (Or.inl hconfusable)
    · rw [eq_ofList_append hfront]
      rcases eq_or_confusable hrest with hsame | hconfusable
      · exact Or.inl hsame.symm
      · exact Or.inr (Or.inr hconfusable)
  · rintro (rfl | hconfusable | hconfusable)
    · rfl
    · exact hconfusable.flatten_eq
    · exact hconfusable.flatten_eq.symm

/-- A call that a provider makes under the flattened name of a tool. -/
def CallsTool (tool : String × String) (item : Json) : Prop :=
  (item.get "type").bind Json.asStr = some "function_call" ∧
    (item.get "name").bind Json.asStr =
      some (flattenNamespaceName tool.1 tool.2)

def sampleCall (tool : String × String) : Json :=
  .obj [("type", .str "function_call"),
    ("name", .str (flattenNamespaceName tool.1 tool.2))]

theorem calls_sampleCall (tool : String × String) :
    CallsTool tool (sampleCall tool) := ⟨rfl, rfl⟩

/-- The item names exactly this tool. -/
def NamesTool (tool : String × String) (item : Json) : Prop :=
  item.get "namespace" = some (.str tool.1) ∧
    item.get "name" = some (.str tool.2)

theorem NamesTool.unique {item : Json} (hleft : NamesTool left item)
    (hright : NamesTool right item) : left = right := by
  obtain ⟨front, child⟩ := left
  obtain ⟨front', child'⟩ := right
  have hfront := hleft.1.symm.trans hright.1
  have hchild := hleft.2.symm.trans hright.2
  cases hfront
  cases hchild
  rfl

theorem restoreItem_names {context : NamespaceToolContext}
    {tool found : String × String} {item : Json} (hcalls : CallsTool tool item)
    (hfound : context.split (flattenNamespaceName tool.1 tool.2) = some found) :
    NamesTool found (context.restoreItem item) := by
  obtain ⟨htype, hname⟩ := hcalls
  cases item with
  | obj fields =>
    rw [NamespaceToolContext.restoreItem, if_pos htype, hname,
      Option.bind_some, hfound]
    constructor
    · rw [Json.get_insertField, if_neg (by decide), Json.get_insertField,
        if_pos rfl]
    · rw [Json.get_insertField, if_pos rfl]
  | _ => cases htype

theorem split_eq_some_of_mem {context : NamespaceToolContext}
    {tool : String × String} (htool : tool ∈ context.flattened) :
    ∃ found ∈ context.flattened,
      context.split (flattenNamespaceName tool.1 tool.2) = some found ∧
      flattenNamespaceName found.1 found.2 =
        flattenNamespaceName tool.1 tool.2 := by
  cases hsplit : context.split (flattenNamespaceName tool.1 tool.2) with
  | none =>
    have hnone := find?_eq_none.mp hsplit tool htool
    exact absurd (decide_eq_true rfl) hnone
  | some found =>
    have hname := find?_some hsplit
    exact ⟨found, mem_of_find?_eq_some hsplit, rfl,
      of_decide_eq_true hname⟩

/-- A request declares a tool. -/
def Declares (request : Json) (tool : String × String) : Prop :=
  tool ∈ (NamespaceToolContext.fromRequest request).flattened

/-- The set that a request is read into, walked in some order. -/
def ReadFrom (context : NamespaceToolContext) (request : Json) : Prop :=
  ∀ tool, tool ∈ context.flattened ↔ Declares request tool

/-- Calls are restored to the tools they were made for, and the names are
distinct, exactly if no two declared tools are confusable. -/
theorem namespaced_calls_restored_iff (request : Json) :
    (∀ context, ReadFrom context request →
        ∀ tool, Declares request tool →
          ∀ item, CallsTool tool item →
            NamesTool tool (context.restoreItem item)) ∧
      (∀ left right, Declares request left → Declares request right →
        flattenNamespaceName left.1 left.2 =
          flattenNamespaceName right.1 right.2 → left = right) ↔
    ∀ left right, Declares request left → Declares request right →
      ¬ Confusable left right := by
  constructor
  · rintro ⟨_, hdistinct⟩ left right hleft hright hconfusable
    exact hconfusable.ne (hdistinct left right hleft hright
      hconfusable.flatten_eq)
  · intro hnone
    have hdistinct : ∀ left right, Declares request left →
        Declares request right →
        flattenNamespaceName left.1 left.2 =
          flattenNamespaceName right.1 right.2 → left = right := by
      intro left right hleft hright heq
      rcases (flattenNamespaceName_eq_iff left right).mp heq with
        hsame | hconfusable | hconfusable
      · exact hsame
      · exact absurd hconfusable (hnone left right hleft hright)
      · exact absurd hconfusable (hnone right left hright hleft)
    refine ⟨?_, hdistinct⟩
    intro context hread tool htool item hcalls
    obtain ⟨found, hmem, hfound, hflat⟩ :=
      split_eq_some_of_mem ((hread tool).mpr htool)
    have hsame := hdistinct found tool ((hread found).mp hmem) htool hflat
    rw [← hsame]
    exact restoreItem_names hcalls hfound

/-- Two tools of the name `a__b__c`. -/
def confusingRequest : Json :=
  .obj [("tools", .arr [
    .obj [("type", .str "namespace"), ("name", .str "a"),
      ("tools", .arr [.obj [("name", .str "b__c")]])],
    .obj [("type", .str "namespace"), ("name", .str "a__b"),
      ("tools", .arr [.obj [("name", .str "c")]])]])]

/-- A call of the second tool is restored to the first one. -/
theorem confused_call : ¬ ∀ request context, ReadFrom context request →
    ∀ tool, Declares request tool → ∀ item, CallsTool tool item →
      NamesTool tool (context.restoreItem item) := by
  intro hrestored
  have hdeclares : ("a__b", "c") ∈
      (NamespaceToolContext.fromRequest confusingRequest).flattened := by
    decide
  have hnames := hrestored confusingRequest
    (NamespaceToolContext.fromRequest confusingRequest)
    (fun tool => Iff.rfl) ("a__b", "c") hdeclares
    (sampleCall ("a__b", "c")) (calls_sampleCall _)
  have hother : NamesTool ("a", "b__c")
      ((NamespaceToolContext.fromRequest confusingRequest).restoreItem
        (sampleCall ("a__b", "c"))) :=
    restoreItem_names (calls_sampleCall _) (by decide)
  exact absurd (hnames.unique hother) (by decide)

end Vellum.Proxy
