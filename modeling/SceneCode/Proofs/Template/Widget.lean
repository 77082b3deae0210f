import SceneCode.Generate

namespace SceneCode.Wrap
open Template

deriving instance DecidableEq for Word, Chunk

def nameTag : List Word :=
  [.bare "pascal_case".toList, .bare "name".toList]

def bodyTag : List Word :=
  [.bare "hanging_indent".toList, .bare "body".toList, .bare ['4']]

def classTag : List Word :=
  [.bare ['>'], .bare "flutter_widget".toList]

/-- What comes before the name of the widget in the file of an app. -/
def appFront : String := "import 'package:flutter/material.dart';

void main() \x7b
  runApp(const FigmaToCodeApp());
\x7d

class FigmaToCodeApp extends StatelessWidget \x7b
  const FigmaToCodeApp(\x7bsuper.key\x7d);

  @override
  Widget build(BuildContext context) \x7b
    return MaterialApp(
      theme: ThemeData.dark().copyWith(
        scaffoldBackgroundColor: const Color.fromARGB(255, 18, 32, 47),
      ),
      home: Scaffold(
        body: ListView(children: [
          "

/-- What comes between that name and the class of the widget. -/
def appBack : String := "(),
        ]),
      ),
    );
  \x7d
\x7d

"

/-- What comes in a class between the name of its constructor and the code of the widget that it builds. -/
def buildFront : String := "(\x7bsuper.key\x7d);

  @override
  Widget build(BuildContext context) \x7b
    return "

def classFront : String := " extends StatelessWidget \x7b
  const "

def buildBack : String := ";
  \x7d
\x7d"

/-- The class of a widget. Its build method returns the code. -/
def widgetClass (name code : String) : String :=
  "class " ++ name ++ classFront ++ name ++ buildFront ++ code ++ buildBack

/-! Reading the templates. Literals are written as lists of characters before anything is computed. -/

theorem flutterWidget_chunks : chunksInText [] flutterWidget.toList =
    some [.text "class ".toList, .tag nameTag, .text classFront.toList, .tag nameTag, .text buildFront.toList,
      .tag bodyTag, .text buildBack.toList] := by
  rw [flutterWidget, nameTag, bodyTag, classFront, buildFront, buildBack]
  repeat rw [String.toList_ofList]
  decide +kernel

theorem flutterApp_chunks : chunksInText [] flutterApp.toList =
    some [.text appFront.toList, .tag nameTag, .text appBack.toList, .tag classTag, .text []] := by
  rw [flutterApp, nameTag, classTag, appFront, appBack]
  repeat rw [String.toList_ofList]
  decide +kernel

def namePart : Template.Part :=
  .call "pascal_case" [.path ["name"]]

def bodyPart : Template.Part :=
  .call "hanging_indent" [.path ["body"], .literal (.integer 4)]

theorem part?_name (indent : List Char) : part? indent nameTag = some namePart :=
  rfl

theorem part?_class (indent : List Char) : part? indent classTag = some (.other "flutter_widget" indent) :=
  rfl

theorem argument?_four : Word.argument? (.bare ['4']) = some (.literal (.integer 4)) := by
  have hf : Json.ofText? 0 (String.ofList ['4']) = .ok (.integer 4) := by
    rw [Json.ofText?, Json.value]
    rfl
  rw [Word.argument?]
  unfold bareArgument?
  simp only [hf]
  rfl

theorem part?_body (indent : List Char) : part? indent bodyTag = some bodyPart := by
  have ha : [Word.bare "body".toList, .bare ['4']].mapM Word.argument? =
      some [.path ["body"], .literal (.integer 4)] := by
    simp only [List.mapM_cons, argument?_four]
    rfl
  unfold part? bodyTag
  rw [if_neg (by decide)]
  simp only [ha]
  rfl

def widgetTemplate : Template :=
  [.text "class ".toList, namePart, .text classFront.toList, namePart, .text buildFront.toList, bodyPart,
    .text buildBack.toList]

def appTemplate : Template :=
  [.text appFront.toList, namePart, .text appBack.toList, .other "flutter_widget" [], .text []]

theorem ofText?_flutterWidget : ofText? flutterWidget = some widgetTemplate := by
  have hn : namePart.isOther = false := rfl
  have hb : bodyPart.isOther = false := rfl
  rw [ofText?, flutterWidget_chunks]
  simp [parts?, part?_name, part?_body, widgetTemplate, hn, hb]

theorem ofText?_flutterApp : ofText? flutterApp = some appTemplate := by
  have hn : namePart.isOther = false := rfl
  have ht : trailingTabs appBack.toList = [] := by
    rw [appBack, String.toList_ofList]
    decide +kernel
  have hd : dropLineBreak [] = [] := rfl
  rw [ofText?, flutterApp_chunks]
  simp [parts?, part?_name, part?_class, appTemplate, hn, ht, hd]

/-- A template under its name, if it can be read. -/
def entryOf? (source : String × String) : Option (String × Template) :=
  (ofText? source.2).map (source.1, ·)

theorem entries_eq : templates.entries = ("flutter_widget", widgetTemplate) :: ("flutter_app", appTemplate) ::
    [("swiftui_view", swiftUIView), ("swiftui_preview", swiftUIPreview)].filterMap entryOf? := by
  have hw : entryOf? ("flutter_widget", flutterWidget) = some ("flutter_widget", widgetTemplate) := by
    rw [entryOf?, ofText?_flutterWidget, Option.map_some]
  have ha : entryOf? ("flutter_app", flutterApp) = some ("flutter_app", appTemplate) := by
    rw [entryOf?, ofText?_flutterApp, Option.map_some]
  have ht : templates = ⟨texts.filterMap entryOf?⟩ := rfl
  rw [ht, texts, List.filterMap_cons_some hw, List.filterMap_cons_some ha]

theorem indented_nil (cs : List Char) : indented [] cs = cs := by
  fun_induction indented [] cs <;> simp_all

/-- The name of the class of a widget. -/
def className (layer : String) : String :=
  String.ofList (Text.pascalCase (componentName layer.toList))

/-- Code as it goes on in a line that is four spaces in. -/
def hanging (code : String) : String :=
  String.ofList (Text.hangingIndent 4 code.toList)

theorem render_of_lookup {ts : Templates} {name text : String} {data : Json} {template : Template}
    (hl : ts.entries.lookup name = some template)
    (hr : render? ts.entries data ts.entries.length [] template = some text.toList) :
    ts.render name data = .ok text := by
  rw [Templates.render, hl]
  dsimp only
  rw [hr]
  dsimp only
  rw [String.ofList_toList]

section
variable (other : String → List Char → Option (List Char)) (layer code : String)

theorem render?_name : namePart.render? other [] (data layer code) = some (className layer).toList := by
  have ho : Helper.ofName? "pascal_case" = some .pascalCase := rfl
  have hv : follow? ["name"] (data layer code) = some (.string (String.ofList (componentName layer.toList))) := rfl
  simp [namePart, Template.Part.render?, ho, Argument.value?, hv, Helper.run?, Helper.charsOf, className]

theorem render?_body : bodyPart.render? other [] (data layer code) = some (hanging code).toList := by
  have ho : Helper.ofName? "hanging_indent" = some .hangingIndent := rfl
  have hv : follow? ["body"] (data layer code) = some (.string code) := rfl
  simp [bodyPart, Template.Part.render?, ho, Argument.value?, hv, Helper.run?, Helper.charsOf, Helper.spacesOf,
    hanging]

theorem render?_text (cs : List Char) : (Template.Part.text cs).render? other [] (data layer code) = some cs :=
  congrArg some (indented_nil cs)

theorem render?_widget (templates : List (String × Template)) (depth : Nat) :
    render? templates (data layer code) (depth + 1) [] widgetTemplate =
      some (widgetClass (className layer) (hanging code)).toList := by
  simp [render?, widgetTemplate, render?_name, render?_body, render?_text, widgetClass]

theorem render?_app (rest : List (String × Template)) (depth : Nat) :
    render? (("flutter_widget", widgetTemplate) :: rest) (data layer code) (depth + 2) [] appTemplate =
      some (appFront ++ className layer ++ appBack ++ widgetClass (className layer) (hanging code)).toList := by
  have hc (other : String → List Char → Option (List Char)) :
      (Template.Part.other "flutter_widget" []).render? other [] (data layer code) = other "flutter_widget" [] := rfl
  have hl : (("flutter_widget", widgetTemplate) :: rest).lookup "flutter_widget" = some widgetTemplate :=
    List.lookup_cons_self
  rw [render?]
  simp [appTemplate, render?_name, render?_text, hc, hl, render?_widget]

theorem render_widget : templates.render "flutter_widget" (data layer code) =
    .ok (widgetClass (className layer) (hanging code)) := by
  have hl : templates.entries.lookup "flutter_widget" = some widgetTemplate := by
    rw [entries_eq, List.lookup_cons_self]
  refine render_of_lookup hl ?_
  rw [entries_eq, List.length_cons, render?_widget]

theorem render_app : templates.render "flutter_app" (data layer code) =
    .ok (appFront ++ className layer ++ appBack ++ widgetClass (className layer) (hanging code)) := by
  have hl : templates.entries.lookup "flutter_app" = some appTemplate := by
    simp [entries_eq, List.lookup_cons]
  refine render_of_lookup hl ?_
  rw [entries_eq, List.length_cons, List.length_cons, render?_app]

end

/-- The file that widget code is kept in. -/
def widgetFile (mode : FlutterMode) (name code : String) : String :=
  match mode with
  | .snippet => code
  | .stateless => widgetClass name (hanging code)
  | .fullApp => appFront ++ name ++ appBack ++ widgetClass name (hanging code)

theorem wrap_flutter {s : Settings} (h : s.framework = .flutter) (layer code : String) :
    wrap s layer code = .ok (widgetFile s.flutterMode (className layer) code) := by
  unfold wrap templateName?
  rw [h]
  cases s.flutterMode with
  | snippet => rfl
  | stateless => exact render_widget layer code
  | fullApp => exact render_app layer code

end SceneCode.Wrap
