import SceneCode.Proofs.Scene.RoundTrip
import SceneCode.Proofs.Settings.Written

namespace SceneCode
open Json

namespace Scene

def toJson (nodes : List Node) : Json :=
  .array (Node.listToJson nodes)

theorem toJson_distinct (nodes : List Node) : (toJson nodes).Distinct :=
  Node.itemsDistinct nodes

/-- Loading asks no more of a value than that it says what was written. -/
theorem ofJson?_of_saidBy {nodes : List Node} {json : Json} (said : (toJson nodes).SaidBy json) :
    ofJson? json = .ok nodes := by
  obtain ⟨items, rfl, said⟩ := said
  rw [ofJson?, Node.listOfJson_of_said false nodes items said]
  rfl

theorem ofJson?_toJson (nodes : List Node) : ofJson? (toJson nodes) = .ok nodes :=
  ofJson?_of_saidBy (saidBy_self _ (toJson_distinct nodes))

theorem ofJson?_normal (nodes : List Node) : ofJson? (toJson nodes).normal = .ok nodes :=
  ofJson?_of_saidBy (saidBy_normal _ (toJson_distinct nodes))

end Scene

theorem Settings.ofText?_toJson (s : Settings) : ofText? s.toJson.toText = .ok s := by
  rw [toJson_eq]
  exact ofText?_of_perm (.refl _)

theorem Settings.ofText?_normal (s : Settings) : ofText? s.toJson.normal.toText = .ok s := by
  obtain ⟨fields, he, hperm⟩ := s.normal_toJson
  rw [he]
  exact ofText?_of_perm hperm

/-- No name stands twice in an object that is written, so nothing is lost on the way, and a scene that was loaded is
loaded again as the same scene. -/
theorem written_is_read_back :
    (∀ nodes, (Scene.toJson nodes).Distinct ∧ Scene.ofJson? (Scene.toJson nodes) = .ok nodes ∧
      Scene.ofJson? (Scene.toJson nodes).normal = .ok nodes) ∧
    (∀ json, (do Scene.ofJson? (Scene.toJson (← Scene.ofJson? json))) = Scene.ofJson? json) ∧
    ∀ s : Settings, Settings.ofText? s.toJson.toText = .ok s ∧ Settings.ofText? s.toJson.normal.toText = .ok s := by
  refine ⟨fun nodes => ⟨Scene.toJson_distinct nodes, Scene.ofJson?_toJson nodes, Scene.ofJson?_normal nodes⟩,
    fun json => ?_, fun s => ⟨s.ofText?_toJson, s.ofText?_normal⟩⟩
  cases h : Scene.ofJson? json with
  | error fault => rfl
  | ok nodes => exact Scene.ofJson?_toJson nodes

end SceneCode
