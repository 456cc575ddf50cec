/-
The names that the grammars know: types of named nodes, tokens and fields.

* `Vocabulary.ofGrammar?` — the names of a grammar; a grammar without a table is taken to know every
  name.

`Query.compile` checks queries against these tables. Nothing that is proved of a tree rests on them:
another `QueryLibrary` may know other names.
-/
import SyntaxEdit.Language.Grammar
import SyntaxEdit.Text.Basic

namespace SyntaxEdit

/-- The names that a grammar knows. -/
structure Vocabulary where
  /-- The types of named nodes. -/
  types : List String
  /-- The tokens, which are the types of the other nodes. -/
  tokens : List String
  fields : List String

namespace Vocabulary

/-- The words of a text, with spaces or newlines between them. -/
def words (s : String) : List String :=
  ((Text.splitOn ' ' (Text.replaceChar '\n' [' '] s.toList)).filter (· ≠ [])).map String.ofList

/-- The names of JavaScript. -/
def javascript : Vocabulary where
  types :=
    (words "arguments array array_pattern arrow_function assignment_expression assignment_pattern
      augmented_assignment_expression await_expression binary_expression break_statement
      call_expression catch_clause class class_body class_declaration class_heritage
      class_static_block comment computed_property_name continue_statement debugger_statement
      decorator do_statement else_clause empty_statement escape_sequence export_clause
      export_specifier export_statement expression_statement false field_definition finally_clause
      for_in_statement for_statement formal_parameters function_declaration function_expression
      generator_function generator_function_declaration hash_bang_line html_character_reference
      html_comment identifier if_statement import import_attribute import_clause import_specifier
      import_statement jsx_attribute jsx_closing_element jsx_element jsx_expression
      jsx_namespace_name jsx_opening_element jsx_self_closing_element jsx_text labeled_statement
      lexical_declaration member_expression meta_property method_definition named_imports
      namespace_export namespace_import new_expression null number object
      object_assignment_pattern object_pattern optional_chain pair pair_pattern
      parenthesized_expression private_property_identifier program property_identifier regex
      regex_flags regex_pattern rest_pattern return_statement sequence_expression
      shorthand_property_identifier shorthand_property_identifier_pattern spread_element
      statement_block statement_identifier string string_fragment subscript_expression super
      switch_body switch_case switch_default switch_statement template_string
      template_substitution ternary_expression this throw_statement true try_statement
      unary_expression undefined update_expression using_declaration variable_declaration
      variable_declarator while_statement with_statement yield_expression")
  tokens :=
    (words "! != !== \" $\x7b % %= & && &&= &= ' ( ) * ** **= *= + ++ += , - -- -= -> . ... / /=
      /> : ; < </ << <<= <= = == === => > >= >> >>= >>> >>>= ? ?. ?? ??= @ [ ] ^ ^= _ ` as assert
      async await break case catch class const continue debugger default delete do else export
      extends finally for from function get if import in instanceof let meta new of return set
      static switch target throw try typeof using var void while with yield \x7b | |= || ||= \x7d
      ~")
  fields :=
    (words "alias alternative argument arguments attribute body close_tag condition consequence
      constructor declaration decorator finalizer flags function handler increment index
      initializer key kind label left member name object open_tag operator optional_chain
      parameter parameters pattern property right source value")

/-- The names of TypeScript. -/
def typescript : Vocabulary where
  types :=
    (words "abstract_class_declaration abstract_method_signature accessibility_modifier
      adding_type_annotation ambient_declaration arguments array array_pattern array_type
      arrow_function as_expression asserts asserts_annotation assignment_expression
      assignment_pattern augmented_assignment_expression await_expression binary_expression
      break_statement call_expression call_signature catch_clause class class_body
      class_declaration class_heritage class_static_block comment computed_property_name
      conditional_type constraint construct_signature constructor_type continue_statement
      debugger_statement decorator default_type do_statement else_clause empty_statement
      enum_assignment enum_body enum_declaration escape_sequence existential_type export_clause
      export_specifier export_statement expression_statement extends_clause extends_type_clause
      false finally_clause flow_maybe_type for_in_statement for_statement formal_parameters
      function_declaration function_expression function_signature function_type generator_function
      generator_function_declaration generic_type hash_bang_line html_comment identifier
      if_statement implements_clause import import_alias import_attribute import_clause
      import_require_clause import_specifier import_statement index_signature index_type_query
      infer_type instantiation_expression interface_body interface_declaration internal_module
      intersection_type jsx_text labeled_statement lexical_declaration literal_type lookup_type
      mapped_type_clause member_expression meta_property method_definition method_signature module
      named_imports namespace_export namespace_import nested_identifier nested_type_identifier
      new_expression non_null_expression null number object object_assignment_pattern
      object_pattern object_type omitting_type_annotation opting_type_annotation optional_chain
      optional_parameter optional_type override_modifier pair pair_pattern
      parenthesized_expression parenthesized_type predefined_type private_property_identifier
      program property_identifier property_signature public_field_definition readonly_type regex
      regex_flags regex_pattern required_parameter rest_pattern rest_type return_statement
      satisfies_expression sequence_expression shorthand_property_identifier
      shorthand_property_identifier_pattern spread_element statement_block statement_identifier
      string string_fragment subscript_expression super switch_body switch_case switch_default
      switch_statement template_literal_type template_string template_substitution template_type
      ternary_expression this this_type throw_statement true try_statement tuple_type
      type_alias_declaration type_annotation type_arguments type_assertion type_identifier
      type_parameter type_parameters type_predicate type_predicate_annotation type_query
      unary_expression undefined union_type update_expression variable_declaration
      variable_declarator while_statement with_statement yield_expression")
  tokens :=
    (words "! != !== \" $\x7b % %= & && &&= &= ' ( ) * ** **= *= + ++ += +? , - -- -= -> -? -?: .
      ... / /= /> : ; < </ << <<= <= = == === => > >= >> >>= >>> >>>= ? ?. ?: ?? ??= @ [ ] ^ ^= _
      ` abstract accessor any as assert asserts async await bigint boolean break case catch class
      const constructor continue debugger declare default delete do else enum export extends
      finally for from function get global if implements import in infer instanceof interface is
      keyof let meta module namespace never new number object of out override private protected
      public readonly require return satisfies set static string switch symbol target throw try
      type typeof undefined unique unknown using var void while with yield \x7b \x7b| | |= || ||=
      |\x7d \x7d ~")
  fields :=
    (words "alias alternative argument arguments body condition consequence constraint constructor
      declaration decorator finalizer flags function handler increment index index_type
      initializer key kind label left module name object operator optional_chain parameter
      parameters pattern property return_type right sign source type type_arguments
      type_parameters value")

/-- The names of TSX: those of TypeScript, without the type assertions that JSX elements take the
form of, and those of JSX. -/
def tsx : Vocabulary where
  types := (typescript.types.filter (· ≠ "type_assertion")) ++
    (words "html_character_reference jsx_attribute jsx_closing_element jsx_element jsx_expression
      jsx_namespace_name jsx_opening_element jsx_self_closing_element")
  tokens := typescript.tokens
  fields := typescript.fields ++    (words "attribute close_tag open_tag")

/-- The names of Python. -/
def python : Vocabulary where
  types :=
    (words "aliased_import argument_list as_pattern as_pattern_target assert_statement assignment
      attribute augmented_assignment await binary_operator block boolean_operator break_statement
      call case_clause case_pattern chevron class_definition class_pattern comment
      comparison_operator complex_pattern concatenated_string conditional_expression
      constrained_type continue_statement decorated_definition decorator default_parameter
      delete_statement dict_pattern dictionary dictionary_comprehension dictionary_splat
      dictionary_splat_pattern dotted_name elif_clause ellipsis else_clause escape_interpolation
      escape_sequence except_clause exec_statement expression_list expression_statement false
      finally_clause float for_in_clause for_statement format_expression format_specifier
      function_definition future_import_statement generator_expression generic_type
      global_statement identifier if_clause if_statement import_from_statement import_prefix
      import_statement integer interpolation keyword_argument keyword_pattern keyword_separator
      lambda lambda_parameters line_continuation list list_comprehension list_pattern list_splat
      list_splat_pattern match_statement member_type module named_expression none
      nonlocal_statement not_operator pair parameters parenthesized_expression
      parenthesized_list_splat pass_statement pattern_list positional_separator print_statement
      raise_statement relative_import return_statement set set_comprehension slice splat_pattern
      splat_type string string_content string_end string_start subscript true try_statement tuple
      tuple_pattern type type_alias_statement type_conversion type_parameter
      typed_default_parameter typed_parameter unary_operator union_pattern union_type
      while_statement wildcard_import with_clause with_item with_statement yield")
  tokens :=
    (words "! != % %= & &= ( ) * ** **= *= + += , - -= -> . / // //= /= : := ; < << <<= <= <> = ==
      > >= >> >>= @ @= [ \\ ] ^ ^= _ __future__ and as assert async await break case class
      continue def del elif else except except* exec finally for from global if import in is
      lambda match nonlocal not or pass print raise return try type while with yield \x7b | |=
      \x7d ~") ++ ["is not", "not in"]
  fields :=
    (words "alias alternative argument arguments attribute body cause code condition consequence
      definition expression format_specifier function guard key left module_name name object
      operator operators parameters return_type right subject subscript superclasses type
      type_conversion type_parameters value")

/-- The names of Rust. -/
def rust : Vocabulary where
  types :=
    (words "abstract_type arguments array_expression array_type assignment_expression
      associated_type async_block attribute attribute_item await_expression base_field_initializer
      binary_expression block block_comment boolean_literal bounded_type bracketed_type
      break_expression call_expression captured_pattern char_literal closure_expression
      closure_parameters compound_assignment_expr const_block const_item const_parameter
      continue_expression crate declaration_list doc_comment dynamic_type else_clause
      empty_statement enum_item enum_variant enum_variant_list escape_sequence
      expression_statement extern_crate_declaration extern_modifier field_declaration
      field_declaration_list field_expression field_identifier field_initializer
      field_initializer_list field_pattern float_literal for_expression for_lifetimes
      foreign_mod_item fragment_specifier function_item function_modifiers function_signature_item
      function_type gen_block generic_function generic_pattern generic_type
      generic_type_with_turbofish higher_ranked_trait_bound identifier if_expression impl_item
      index_expression inner_attribute_item inner_doc_comment_marker integer_literal label
      let_chain let_condition let_declaration lifetime lifetime_parameter line_comment
      loop_expression macro_definition macro_invocation macro_rule match_arm match_block
      match_expression match_pattern metavariable mod_item mut_pattern mutable_specifier
      negative_literal never_type or_pattern ordered_field_declaration_list
      outer_doc_comment_marker parameter parameters parenthesized_expression pointer_type
      primitive_type qualified_type range_expression range_pattern raw_string_literal ref_pattern
      reference_expression reference_pattern reference_type remaining_field_pattern
      removed_trait_bound return_expression scoped_identifier scoped_type_identifier
      scoped_use_list self self_parameter shebang shorthand_field_identifier
      shorthand_field_initializer slice_pattern source_file static_item string_content
      string_literal struct_expression struct_item struct_pattern super token_binding_pattern
      token_repetition token_repetition_pattern token_tree token_tree_pattern trait_bounds
      trait_item try_block try_expression tuple_expression tuple_pattern tuple_struct_pattern
      tuple_type type_arguments type_binding type_cast_expression type_identifier type_item
      type_parameter type_parameters unary_expression union_item unit_expression unit_type
      unsafe_block use_as_clause use_bounds use_declaration use_list use_wildcard
      variadic_parameter visibility_modifier where_clause where_predicate while_expression
      yield_expression")
  tokens :=
    (words "! != \" # $ % %= & && &= ' ( ) * */ *= + += , - -= -> . .. ... ..= / /* // /= : :: ; <
      << <<= <= = == => > >= >> >>= ? @ [ ] ^ ^= _ as async await block break const continue crate
      default dyn else enum expr expr_2021 extern false fn for gen ident if impl in item let
      lifetime literal loop macro_rules! match meta mod move mut pat pat_param path pub raw ref
      return self static stmt struct super trait true try tt ty type union unsafe use vis where
      while yield \x7b | |= || \x7d")
  fields :=
    (words "alias alternative argument arguments body bounds condition consequence default_type
      doc element field function inner left length list macro name operator outer parameters path
      pattern return_type right trait type type_arguments type_parameters value")

/-- The names of Go. -/
def go : Vocabulary where
  types :=
    (words "argument_list array_type assignment_statement binary_expression blank_identifier block
      break_statement call_expression channel_type comment communication_case composite_literal
      const_declaration const_spec continue_statement dec_statement default_case defer_statement
      dot empty_statement escape_sequence expression_case expression_list expression_statement
      expression_switch_statement fallthrough_statement false field_declaration
      field_declaration_list field_identifier float_literal for_clause for_statement func_literal
      function_declaration function_type generic_type go_statement goto_statement identifier
      if_statement imaginary_literal implicit_length_array_type import_declaration import_spec
      import_spec_list inc_statement index_expression int_literal interface_type
      interpreted_string_literal interpreted_string_literal_content iota keyed_element label_name
      labeled_statement literal_element literal_value map_type method_declaration method_elem
      negated_type nil package_clause package_identifier parameter_declaration parameter_list
      parenthesized_expression parenthesized_type pointer_type qualified_type range_clause
      raw_string_literal raw_string_literal_content receive_statement return_statement
      rune_literal select_statement selector_expression send_statement short_var_declaration
      slice_expression slice_type source_file statement_list struct_type true type_alias
      type_arguments type_assertion_expression type_case type_constraint
      type_conversion_expression type_declaration type_elem type_identifier
      type_instantiation_expression type_parameter_declaration type_parameter_list type_spec
      type_switch_statement unary_expression var_declaration var_spec var_spec_list
      variadic_argument variadic_parameter_declaration")
  tokens :=
    (words "! != \" % %= & && &= &^ &^= ' ( ) * *= + ++ += , - -- -= . ... / /= : := ; < <- << <<=
      <= = == > >= >> >>= [ ] ^ ^= ` break case chan const continue default defer else fallthrough
      for func go goto if import interface make map new package range return select struct switch
      type var \x7b | |= || \x7d ~")
  fields :=
    (words "alias alternative arguments body capacity channel communication condition consequence
      element end field function index initializer key label left length name operand operator
      package parameters path receiver result right start tag type type_arguments type_parameters
      update value")

/-- The names of Java. -/
def java : Vocabulary where
  types :=
    (words "annotated_type annotation annotation_argument_list annotation_type_body
      annotation_type_declaration annotation_type_element_declaration argument_list array_access
      array_creation_expression array_initializer array_type assert_statement
      assignment_expression asterisk binary_expression binary_integer_literal block block_comment
      boolean_type break_statement cast_expression catch_clause catch_formal_parameter catch_type
      character_literal class_body class_declaration class_literal compact_constructor_declaration
      constant_declaration constructor_body constructor_declaration continue_statement
      decimal_floating_point_literal decimal_integer_literal dimensions dimensions_expr
      do_statement element_value_array_initializer element_value_pair enhanced_for_statement
      enum_body enum_body_declarations enum_constant enum_declaration escape_sequence
      explicit_constructor_invocation exports_module_directive expression_statement
      extends_interfaces false field_access field_declaration finally_clause floating_point_type
      for_statement formal_parameter formal_parameters generic_type guard
      hex_floating_point_literal hex_integer_literal identifier if_statement import_declaration
      inferred_parameters instanceof_expression integral_type interface_body interface_declaration
      labeled_statement lambda_expression line_comment local_variable_declaration
      marker_annotation method_declaration method_invocation method_reference modifiers
      module_body module_declaration multiline_string_fragment null_literal
      object_creation_expression octal_integer_literal opens_module_directive package_declaration
      parenthesized_expression pattern permits program provides_module_directive
      receiver_parameter record_declaration record_pattern record_pattern_body
      record_pattern_component requires_modifier requires_module_directive resource
      resource_specification return_statement scoped_identifier scoped_type_identifier
      spread_parameter static_initializer string_fragment string_interpolation string_literal
      super super_interfaces superclass switch_block switch_block_statement_group
      switch_expression switch_label switch_rule synchronized_statement template_expression
      ternary_expression this throw_statement throws true try_statement
      try_with_resources_statement type_arguments type_bound type_identifier type_list
      type_parameter type_parameters type_pattern unary_expression underscore_pattern
      update_expression uses_module_directive variable_declarator void_type while_statement
      wildcard yield_statement")
  tokens :=
    (words "! != \" \"\"\" % %= & && &= ( ) * *= + ++ += , - -- -= -> . ... / /= : :: ; < << <<=
      <= = == > >= >> >>= >>> >>>= ? @ @interface [ \\\x7b ] ^ ^= abstract assert boolean break
      byte case catch char class continue default do double else enum exports extends final
      finally float for if implements import instanceof int interface long module native new
      non-sealed open opens package permits private protected provides public record requires
      return sealed short static strictfp switch synchronized throw throws to transient transitive
      try uses void volatile when while with yield \x7b | |= || \x7d ~")
  fields :=
    (words "alternative arguments array body condition consequence constructor declarator
      dimensions element field index init interfaces key left modifiers module modules name object
      operand operator package parameters pattern permits provided provider resources right scope
      superclass template_argument template_processor type type_arguments type_parameters update
      value")

/-- The names of Ruby. -/
def ruby : Vocabulary where
  types :=
    (words "alias alternative_pattern argument_list array array_pattern as_pattern assignment
      bare_string bare_symbol begin begin_block binary block block_argument block_body
      block_parameter block_parameters body_statement break call case case_match chained_string
      character class class_variable comment complex conditional constant delimited_symbol
      destructured_left_assignment destructured_parameter do do_block element_reference else elsif
      empty_statement encoding end_block ensure escape_sequence exception_variable exceptions
      expression_reference_pattern false file find_pattern float for forward_argument
      forward_parameter global_variable hash hash_key_symbol hash_pattern hash_splat_argument
      hash_splat_nil hash_splat_parameter heredoc_beginning heredoc_body heredoc_content
      heredoc_end identifier if if_guard if_modifier in in_clause instance_variable integer
      interpolation keyword_parameter keyword_pattern lambda lambda_parameters
      left_assignment_list line match_pattern method method_parameters module next nil operator
      operator_assignment optional_parameter pair parenthesized_pattern parenthesized_statements
      pattern program range rational redo regex rescue rescue_modifier rest_assignment retry
      return right_assignment_list scope_resolution self setter simple_symbol singleton_class
      singleton_method splat_argument splat_parameter string string_array string_content subshell
      super superclass symbol_array test_pattern then true unary undef uninterpreted unless
      unless_guard unless_modifier until until_modifier variable_reference_pattern when while
      while_modifier yield")
  tokens :=
    (words "! != !~ \" #\x7b % %= %i( %w( & && &&= &. &= ( ) * ** **= *= + += +@ , - -= -> -@ . ..
      ... / /= : :\" :: ; < << <<= <= <=> = == === => =~ > >= >> >>= ? BEGIN END [ [] []= ] ^ ^=
      __ENCODING__ __FILE__ __LINE__ ` alias and begin break case class def defined? do else elsif
      end ensure false for if in module next nil not or redo rescue retry return self super then
      true undef unless until when while yield \x7b | |= || ||= \x7d ~")
  fields :=
    (words "alias alternative alternatives arguments begin block body class clauses condition
      consequence else end exceptions guard handler key left locals method name object operand
      operator parameters pattern receiver right scope superclass value variable")

/-- The names of Lua. -/
def lua : Vocabulary where
  types :=
    (words "arguments assignment_statement attribute binary_expression block
      bracket_index_expression break_statement chunk comment comment_content do_statement
      dot_index_expression else_statement elseif_statement empty_statement escape_sequence
      expression_list false field for_generic_clause for_numeric_clause for_statement
      function_call function_declaration function_definition goto_statement hash_bang_line
      identifier if_statement label_statement method_index_expression nil number parameters
      parenthesized_expression repeat_statement return_statement string string_content
      table_constructor true unary_expression vararg_expression variable_declaration variable_list
      while_statement")
  tokens :=
    (words "\" # % & ' ( ) * + , - . .. / // : :: ; < << <= = == > >= >> [ [[ ] ]] ^ and break do
      else elseif end for function global goto if in local not or repeat return then until while
      \x7b | \x7d ~ ~=")
  fields :=
    (words "alternative arguments attribute body clause condition consequence content end field
      left local_declaration method name operand parameters right start step table value")

/-- The names that a grammar knows, where there is a table of them. -/
def ofGrammar? : Grammar → Option Vocabulary
  | .javascript => some javascript
  | .typescript => some typescript
  | .tsx => some tsx
  | .python => some python
  | .rust => some rust
  | .go => some go
  | .java => some java
  | .ruby => some ruby
  | .lua => some lua
  | _ => none

end Vocabulary

namespace Grammar

/-- Whether a grammar has named nodes of a type. Every grammar has the type of errors. -/
def knowsType (g : Grammar) (type : String) : Bool :=
  type = "ERROR" || (Vocabulary.ofGrammar? g).all fun v => v.types.contains type

/-- Whether a grammar has a token. -/
def knowsToken (g : Grammar) (token : String) : Bool :=
  (Vocabulary.ofGrammar? g).all fun v => v.tokens.contains token

/-- Whether a grammar has a field. -/
def knowsField (g : Grammar) (field : String) : Bool :=
  (Vocabulary.ofGrammar? g).all fun v => v.fields.contains field

end Grammar

end SyntaxEdit
