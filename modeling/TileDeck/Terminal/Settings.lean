import TileDeck.Config
import TileDeck.Terminal

set_option autoImplicit false

namespace TileDeck.Config

def settings (config : Config) (colours : List (PaletteId × Rgb)) (title : String) :
    Terminal.Settings where
  columns := config.display.columns
  rows := config.display.rows
  rate := config.display.rate.toNat
  title := title
  palette := colours

end TileDeck.Config
