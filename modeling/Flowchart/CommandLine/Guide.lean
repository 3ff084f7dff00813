/-! The texts by which the program explains itself. -/
namespace Flowchart.CommandLine

def programName : String := "bridgechart"

def usage : String := "Usage: " ++ programName ++ " [OPTIONS] [INPUT]\n"

def help : String :=
  "Flowcharts from Bridge notation\n\n" ++ usage ++ "
Arguments:
  [INPUT]  Input file (reads from stdin if not provided)

Options:
  -o, --output <OUTPUT>  Output file (writes to stdout if not provided)
  -f, --format <FORMAT>  Output format [default: svg] [possible values: svg, png, json]
  -t, --theme <THEME>    Color theme file (TOML format)
  -g, --grammar          Show the notation reference
  -h, --help             Print help
"

def introduction : String :=
  programName ++ " - Flowcharts from Bridge notation

USAGE:
    " ++ programName ++ " [OPTIONS] [FILE]
    cat chart.bridge | " ++ programName ++ " > chart.svg

OPTIONS:
    -o, --output     Write to a file instead of stdout
    -f, --format     svg (default), png or json
    -t, --theme      Color theme (TOML file)
    -g, --grammar    Show the notation reference
    -h, --help       Print help

Run --grammar for the notation reference.
"

def grammar : String := "BRIDGE NOTATION
===============

A chart has two phases separated by a line of dots (`...`).

DECLARATIONS (one block per line)
---------------------------------
    ts()             start terminator, labelled \"Start\"
    te()             end terminator, labelled \"End\"
    t(text)          terminator
    p[text]          process
    l[text]          input or output
    d<text>          decision
    c[)              connector
    B\x7b *tm:... \x7d     composite block; fields *tm *bm *tl *tr *bl *br

Text may be quoted with \"...\", '...', \"\"\"...\"\"\" or '''...'''.
A B\x7b block may span several lines until its braces balance.

STRUCTURE (how declared blocks connect)
---------------------------------------
    a>               arrow from the previous block to the next one
    a<               arrow from the next block to the previous one
    a*label*>        labelled arrow
    a>!p[Ask]        back-reference: loop back to an earlier block
    p[Retry] a>!p[Ask]
                     block followed by an inline back-reference
    ma*label*>[      branch out: the previous block connects to every
      a*Yes*         block listed until a line holding only `]`;
      te()           an arrow line labels the next block only
      p[Retry]
    ]
    p[Join] ma<[     merge in: every listed block flows into p[Join]
      p[Left]
      p[Right]
    ]

Blocks are referred to by repeating their declaration; whitespace does
not matter. Unknown lines and references are reported and skipped.
"

end Flowchart.CommandLine
