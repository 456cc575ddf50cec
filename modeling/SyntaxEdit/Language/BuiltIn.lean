/-
The packs that are always available: JavaScript, TypeScript, TSX, Python and Rust.

* `builtInPacks` — the packs, in the order in which a registry takes them up.
-/
import SyntaxEdit.Language.Pack

namespace SyntaxEdit

/-! ### JavaScript, which covers JSX -/

/-- Classes of JavaScript. -/
def javascriptClasses : Text :=
  "
(class_declaration
  name: (_) @name) @class
".toList

/-- Methods and functions of JavaScript, arrow functions held by a constant among them. -/
def javascriptMethods : Text :=
  "
(method_definition
  name: (_) @name) @method

(function_declaration
  name: (identifier) @name) @method

(generator_function_declaration
  name: (identifier) @name) @method

(lexical_declaration
  (variable_declarator
    name: (identifier) @name
    value: [(arrow_function) (function_expression)])) @method
".toList

/-- Fields of JavaScript classes. -/
def javascriptProperties : Text :=
  "
(field_definition
  property: (_) @name) @property
".toList

/-- Calls with a callback, as test suites use them. A call with a label needs a second argument,
which may name a function; without a label only a function literal counts, or every call would be a
block. -/
def javascriptBlocks : Text :=
  "
(call_expression
  function: (identifier) @callee
  arguments: (arguments
    . [(string) (template_string)] @name
    [(arrow_function) (function_expression) (identifier) (member_expression)])) @block

(call_expression
  function: (identifier) @callee
  arguments: (arguments . [(arrow_function) (function_expression)])) @block
".toList

/-- The pack for JavaScript. -/
def javascriptPack : LanguagePack :=
  (LanguagePack.plain "javascript" .javascript)
    |>.withExtensions ["js", "mjs", "cjs", "jsx"]
    |>.withQuery .classes javascriptClasses
    |>.withQuery .methods javascriptMethods
    |>.withQuery .properties javascriptProperties
    |>.withQuery .blocks javascriptBlocks
    |>.withKinds
      [("class_declaration", .classType), ("method_definition", .method),
       ("function_declaration", .function), ("generator_function_declaration", .function),
       ("field_definition", .property), ("call_expression", .block), ("class_body", .body),
       ("statement_block", .body)]
    |>.withBodyRules
      [("class_declaration", [.field "body"]), ("class", [.field "body"]),
       ("method_definition", [.field "body"]), ("function_declaration", [.field "body"]),
       ("generator_function_declaration", [.field "body"]),
       ("function_expression", [.field "body"]), ("arrow_function", [.functionBody]),
       ("lexical_declaration", [.functionBody]), ("call_expression", [.callbackBody]),
       ("class_body", [.itself]), ("statement_block", [.itself]), ("program", [.itself])]
    |>.withStringUnwrap "string_fragment"
    |>.withIndentUnit "  ".toList

/-! ### TypeScript and TSX -/

/-- Classes, interfaces and enumerations of TypeScript. -/
def typescriptClasses : Text :=
  "
(class_declaration
  name: (_) @name) @class

(abstract_class_declaration
  name: (_) @name) @class

(interface_declaration
  name: (_) @name) @class

(enum_declaration
  name: (_) @name) @class
".toList

/-- Methods and functions of TypeScript that have no body. -/
def typescriptSignatures : Text :=
  "
(method_signature
  name: (_) @name) @method

(abstract_method_signature
  name: (_) @name) @method

(function_signature
  name: (identifier) @name) @method
".toList

/-- Fields of classes and interfaces of TypeScript. -/
def typescriptProperties : Text :=
  "
(public_field_definition
  name: (_) @name) @property

(property_signature
  name: (_) @name) @property
".toList

/-- The pack for TypeScript: that for JavaScript with the constructs of types. -/
def typescriptPack : LanguagePack :=
  (javascriptPack.derive "typescript" .typescript)
    |>.withExtensions ["ts", "mts", "cts"]
    |>.withQuery .classes typescriptClasses
    |>.withQuery .methods (javascriptMethods ++ ['\n'] ++ typescriptSignatures)
    |>.withQuery .properties typescriptProperties
    |>.withKinds
      [("abstract_class_declaration", .classType), ("interface_declaration", .interface),
       ("enum_declaration", .classType), ("method_signature", .method),
       ("abstract_method_signature", .method), ("function_signature", .function),
       ("public_field_definition", .property), ("property_signature", .property),
       ("interface_body", .body), ("object_type", .body), ("enum_body", .body)]
    |>.withBodyRules
      [("abstract_class_declaration", [.field "body"]),
       ("interface_declaration", [.field "body"]), ("enum_declaration", [.field "body"]),
       ("interface_body", [.itself]), ("object_type", [.itself]), ("enum_body", [.itself])]

/-- The pack for TSX, which differs from TypeScript in its grammar only. -/
def tsxPack : LanguagePack :=
  (typescriptPack.derive "tsx" .tsx).withExtensions ["tsx"]

/-! ### Python -/

/-- Classes of Python. -/
def pythonClasses : Text :=
  "
(class_definition
  name: (identifier) @name) @class
".toList

/-- Methods and functions of Python. -/
def pythonMethods : Text :=
  "
(function_definition
  name: (identifier) @name) @method
".toList

/-- Attributes assigned at the level of a class. -/
def pythonProperties : Text :=
  "
(class_definition
  body: (block
    (expression_statement
      (assignment
        left: (identifier) @name)) @property))
".toList

/-- Blocks with a context that a call with a label makes. -/
def pythonBlocks : Text :=
  "
(with_statement
  (with_clause
    (with_item
      value: (call
        function: (identifier) @callee
        arguments: (argument_list . (string) @name))))) @block
".toList

/-- The pack for Python. -/
def pythonPack : LanguagePack :=
  (LanguagePack.plain "python" .python)
    |>.withExtensions ["py", "pyi", "pyw"]
    |>.withQuery .classes pythonClasses
    |>.withQuery .methods pythonMethods
    |>.withQuery .properties pythonProperties
    |>.withQuery .blocks pythonBlocks
    |>.withKinds
      [("class_definition", .classType), ("function_definition", .function),
       ("with_statement", .block), ("block", .body)]
    |>.withBodyRules
      [("class_definition", [.field "body"]), ("function_definition", [.field "body"]),
       ("decorated_definition", [.functionBody]), ("with_statement", [.field "body"]),
       ("block", [.itself]), ("module", [.itself])]
    |>.withStringUnwrap "string_content"

/-! ### Rust -/

/-- Types, traits and implementations of Rust. An implementation counts as a class of its type's
name, so that its methods are found under it. -/
def rustClasses : Text :=
  "
(struct_item
  name: (type_identifier) @name) @class

(enum_item
  name: (type_identifier) @name) @class

(trait_item
  name: (type_identifier) @name) @class

(impl_item
  type: (type_identifier) @name) @class

(impl_item
  type: (generic_type
    type: (type_identifier) @name)) @class
".toList

/-- Functions of Rust, with or without a body. -/
def rustMethods : Text :=
  "
(function_item
  name: (identifier) @name) @method

(function_signature_item
  name: (identifier) @name) @method
".toList

/-- Fields and variants of Rust. -/
def rustProperties : Text :=
  "
(field_declaration
  name: (field_identifier) @name) @property

(enum_variant
  name: (identifier) @name) @property
".toList

/-- The pack for Rust, which has no blocks. -/
def rustPack : LanguagePack :=
  (LanguagePack.plain "rust" .rust)
    |>.withExtensions ["rs"]
    |>.withQuery .classes rustClasses
    |>.withQuery .methods rustMethods
    |>.withQuery .properties rustProperties
    |>.withKinds
      [("struct_item", .classType), ("enum_item", .classType), ("impl_item", .classType),
       ("trait_item", .interface), ("function_item", .function),
       ("function_signature_item", .function), ("field_declaration", .property),
       ("enum_variant", .property), ("declaration_list", .body),
       ("field_declaration_list", .body), ("enum_variant_list", .body), ("block", .body)]
    |>.withBodyRules
      [("struct_item", [.field "body"]), ("enum_item", [.field "body"]),
       ("impl_item", [.field "body"]), ("trait_item", [.field "body"]),
       ("function_item", [.field "body"]), ("mod_item", [.field "body"]),
       ("declaration_list", [.itself]), ("field_declaration_list", [.itself]),
       ("enum_variant_list", [.itself]), ("block", [.itself])]
    |>.withStringUnwrap "string_content"

/-- The packs that are always available. -/
def builtInPacks : List LanguagePack :=
  [javascriptPack, typescriptPack, tsxPack, pythonPack, rustPack]

end SyntaxEdit
