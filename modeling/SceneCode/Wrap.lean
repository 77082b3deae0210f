import SceneCode.Settings.Basic
import SceneCode.Template.Library

namespace SceneCode.Wrap

def flutterWidget : String :=
"class \x7b\x7bpascal_case name\x7d\x7d extends StatelessWidget \x7b
  const \x7b\x7bpascal_case name\x7d\x7d(\x7bsuper.key\x7d);

  @override
  Widget build(BuildContext context) \x7b
    return \x7b\x7bhanging_indent body 4\x7d\x7d;
  \x7d
\x7d"

def flutterApp : String :=
"import 'package:flutter/material.dart';

void main() \x7b
  runApp(const FigmaToCodeApp());
\x7d

class FigmaToCodeApp extends StatelessWidget \x7b
  const FigmaToCodeApp(\x7bsuper.key\x7d);

  @override
  Widget build(BuildContext context) \x7b
    return MaterialApp(
      theme: ThemeData.dark().copyWith(
        scaffoldBackgroundColor: const Color.fromARGB(255, 18, 32, 47),
      ),
      home: Scaffold(
        body: ListView(children: [
          \x7b\x7bpascal_case name\x7d\x7d(),
        ]),
      ),
    );
  \x7d
\x7d

\x7b\x7b> flutter_widget\x7d\x7d"

def swiftUIView : String :=
"import SwiftUI

struct \x7b\x7bpascal_case name\x7d\x7d: View \x7b
  var body: some View \x7b
    \x7b\x7bhanging_indent body 4\x7d\x7d
  \x7d
\x7d"

def swiftUIPreview : String :=
"\x7b\x7b> swiftui_view\x7d\x7d

#Preview \x7b
  \x7b\x7bpascal_case name\x7d\x7d()
\x7d"

def texts : List (String × String) := [
  ("flutter_widget", flutterWidget),
  ("flutter_app", flutterApp),
  ("swiftui_view", swiftUIView),
  ("swiftui_preview", swiftUIPreview)]

def templates : Templates :=
  ⟨texts.filterMap fun (name, text) => (Template.ofText? text).map (name, ·)⟩

/-- Snippets and markup stand alone. -/
def templateName? (s : Settings) : Option String :=
  match s.framework with
  | .html | .tailwind => none
  | .flutter =>
    match s.flutterMode with
    | .snippet => none
    | .stateless => some "flutter_widget"
    | .fullApp => some "flutter_app"
  | .swiftUI =>
    match s.swiftUIMode with
    | .snippet => none
    | .viewStruct => some "swiftui_view"
    | .preview => some "swiftui_preview"

/-- A layer name that becomes the name of a type in Pascal case. It has a letter in front of digits. -/
def componentName (layer : List Char) : List Char :=
  match Text.trim (layer.map fun c => if Text.isAlphanumeric c then c else ' ') with
  | [] => "Component".toList
  | c :: cs => if Text.isDigit c then "Component ".toList ++ c :: cs else c :: cs

def data (layer body : String) : Json :=
  .object [("body", .string body), ("name", .string (String.ofList (componentName layer.toList)))]

def wrap (s : Settings) (layer body : String) : Except Template.Error String :=
  match templateName? s with
  | some name => templates.render name (data layer body)
  | none => .ok body

end SceneCode.Wrap
