import EmbedUI.Chart.Scalar
import EmbedUI.Decimal.Layout

/-!
# Shared inline styles

Every component sits in the same kind of card and has the same kind of button. Numbers in styles
and labels have at most two decimals.
-/

namespace EmbedUI.Markup

/-- A number rounded to two decimals, without an exponent. -/
def amountText (v : Float) : String := Decimal.markupLayout.render (Chart.toHundredths v)

def fontStack : String := "-apple-system, BlinkMacSystemFont, 'Segoe UI', Roboto, sans-serif"

def greenGradient : String := "linear-gradient(135deg, #10b981 0%, #059669 100%)"
def blueGradient : String := "linear-gradient(135deg, #3b82f6 0%, #1d4ed8 100%)"
def amberGradient : String := "linear-gradient(135deg, #f59e0b 0%, #d97706 100%)"
def purpleGradient : String := "linear-gradient(135deg, #667eea 0%, #764ba2 100%)"

/-- The card without its width. -/
def cardStyle : String :=
  "padding: 2rem; font-family: " ++ fontStack ++ "; background: " ++ purpleGradient
    ++ "; color: white; border-radius: 12px; box-shadow: 0 10px 25px rgba(0,0,0,0.2);"

/-- The card that a component sits in. -/
def containerStyle (maxWidth : String) : String :=
  cardStyle ++ " max-width: " ++ maxWidth ++ "; margin: 0 auto;"

/-- The button that sends a component's action. -/
def buttonStyle (background : String) : String :=
  "padding: 0.75rem 1.5rem; border: none; border-radius: 8px; background: " ++ background
    ++ "; color: white; font-size: 1rem; font-weight: 500; cursor: pointer;"
    ++ " transition: all 0.2s;"

def headingStyle : String := "margin-bottom: 1.5rem; text-align: center;"

/-- The row that a component's button stands in. -/
def footerStyle : String := "text-align: center; margin-top: 2rem;"

end EmbedUI.Markup
